import Smqtt.Client.SmqttClient
import Mathlib.Data.List.DropRight

/-!
The base64 codec of the client library. It is Python's, with the padding taken off and
put on again; Python's decoder is lenient where the server's is strict. On what either
side sends the two agree.
-/

namespace Smqtt.Codec

open Base64Url

/-- The standard alphabet, which ends in `+` and `/`. -/
def standardChar (n : Nat) : Char :=
  if n < 26 then Char.ofNat (n + 65)
  else if n < 52 then Char.ofNat (n + 71)
  else if n < 62 then Char.ofNat (n - 4)
  else if n = 62 then '+'
  else '/'

def standardIndex (c : Char) : Option Nat :=
  let n := c.toNat
  if 65 ≤ n ∧ n < 91 then some (n - 65)
  else if 97 ≤ n ∧ n < 123 then some (n - 71)
  else if 48 ≤ n ∧ n < 58 then some (n + 4)
  else if n = 43 then some 62
  else if n = 47 then some 63
  else none

def b2aBase64 (data : List UInt8) : List Char :=
  (toSextets data).map standardChar ++ List.replicate ((3 - data.length % 3) % 3) '='

/-- The decoder in its lenient mode. It drops the characters outside the alphabet and
stops at the first padding that completes a group of four; `quadPos` counts the
characters of the group, `leftchar` holds the bits not yet written. -/
def a2bBase64 : (quadPos leftchar pads : Nat) → List Char → Option (List UInt8)
  | 0, _, _, [] => some []
  | _ + 1, _, _, [] => none
  | quadPos, leftchar, pads, c :: rest =>
      if c = '=' then
        if 2 ≤ quadPos ∧ 4 ≤ quadPos + (pads + 1) then some []
        else a2bBase64 quadPos leftchar (if 2 ≤ quadPos then pads + 1 else pads) rest
      else
        match standardIndex c with
        | none => a2bBase64 quadPos leftchar pads rest
        | some n =>
            match quadPos with
            | 0 => a2bBase64 1 n 0 rest
            | 1 => (a2bBase64 2 (n % 16) 0 rest).map (UInt8.ofNat (leftchar * 4 + n / 16) :: ·)
            | 2 => (a2bBase64 3 (n % 4) 0 rest).map (UInt8.ofNat (leftchar * 16 + n / 4) :: ·)
            | _ => (a2bBase64 0 0 0 rest).map (UInt8.ofNat (leftchar * 64 + n) :: ·)

def urlsafeB64encode (data : List UInt8) : List Char :=
  (b2aBase64 data).map fun c => if c = '+' then '-' else if c = '/' then '_' else c

/-- A text with other characters than those of ASCII is refused. -/
def urlsafeB64decode (text : List Char) : Option (List UInt8) :=
  if text.all fun c => c.toNat < 128 then
    a2bBase64 0 0 0 (text.map fun c => if c = '-' then '+' else if c = '_' then '/' else c)
  else none

def b64uEncode (data : List UInt8) : String :=
  String.ofList ((urlsafeB64encode data).rdropWhile fun c => c = '=')

def padding (length : Nat) : List Char :=
  let padding := 4 - length % 4
  if padding ≠ 4 then List.replicate padding '=' else []

def b64uDecode (text : String) : Option (List UInt8) :=
  urlsafeB64decode (text.toList ++ padding text.length)

theorem urlsafe_standardChar {n : Nat} (h : n < 64) :
    (if standardChar n = '+' then '-' else if standardChar n = '/' then '_' else standardChar n) =
      encodeSextet n := by
  have table : ∀ n < 64, (if standardChar n = '+' then '-'
      else if standardChar n = '/' then '_' else standardChar n) = encodeSextet n := by decide
  exact table n h

theorem map_urlsafe {ns : List Nat} (h : ∀ n ∈ ns, n < 64) :
    (ns.map standardChar).map (fun c => if c = '+' then '-' else if c = '/' then '_' else c) =
      ns.map encodeSextet := by
  rw [List.map_map]
  exact List.map_congr_left fun n mem => urlsafe_standardChar (h n mem)

theorem encodeSextet_ne_pad {n : Nat} (h : n < 64) : encodeSextet n ≠ '=' := by
  have table : ∀ n < 64, encodeSextet n ≠ '=' := by decide
  exact table n h

theorem rdropWhile_padded {p : Char → Bool} {text : List Char} {pad : Char} {n : Nat}
    (plain : ∀ c ∈ text, p c = false) (drops : p pad = true) :
    (text ++ List.replicate n pad).rdropWhile p = text := by
  induction n with
  | zero =>
      rw [List.replicate_zero, List.append_nil]
      exact List.rdropWhile_eq_self_iff.mpr fun some last => by
        simp [plain _ (List.getLast_mem some)] at last
  | succ n ih =>
      rw [List.replicate_succ', ← List.append_assoc, List.rdropWhile_concat_pos p _ _ drops, ih]

/-- The client encodes as the server does. -/
theorem b64uEncode_eq (data : List UInt8) : b64uEncode data = Base64Url.encode data := by
  unfold b64uEncode urlsafeB64encode b2aBase64 Base64Url.encode
  rw [List.map_append, map_urlsafe (toSextets_lt data), List.map_replicate]
  refine congrArg String.ofList (rdropWhile_padded ?_ (by decide))
  intro c mem
  obtain ⟨n, index, rfl⟩ := List.mem_map.mp mem
  simpa using encodeSextet_ne_pad (toSextets_lt data n index)

theorem standardIndex_standardChar {n : Nat} (h : n < 64) :
    standardIndex (standardChar n) = some n := by
  have table : ∀ n < 64, standardIndex (standardChar n) = some n := by decide
  exact table n h

theorem standardChar_ne_pad {n : Nat} (h : n < 64) : standardChar n ≠ '=' := by
  have table : ∀ n < 64, standardChar n ≠ '=' := by decide
  exact table n h

section
variable {n leftchar pads : Nat} {rest : List Char} (h : n < 64)
include h

/-- One character of the alphabet, by the place it has in its group. -/
theorem a2b_first : a2bBase64 0 leftchar pads (standardChar n :: rest) =
    a2bBase64 1 n 0 rest := by
  rw [a2bBase64, if_neg (standardChar_ne_pad h), standardIndex_standardChar h]
  rfl

theorem a2b_second : a2bBase64 1 leftchar pads (standardChar n :: rest) =
    (a2bBase64 2 (n % 16) 0 rest).map (UInt8.ofNat (leftchar * 4 + n / 16) :: ·) := by
  rw [a2bBase64, if_neg (standardChar_ne_pad h), standardIndex_standardChar h]
  rfl

theorem a2b_third : a2bBase64 2 leftchar pads (standardChar n :: rest) =
    (a2bBase64 3 (n % 4) 0 rest).map (UInt8.ofNat (leftchar * 16 + n / 4) :: ·) := by
  rw [a2bBase64, if_neg (standardChar_ne_pad h), standardIndex_standardChar h]
  rfl

theorem a2b_fourth : a2bBase64 3 leftchar pads (standardChar n :: rest) =
    (a2bBase64 0 0 0 rest).map (UInt8.ofNat (leftchar * 64 + n) :: ·) := by
  rw [a2bBase64, if_neg (standardChar_ne_pad h), standardIndex_standardChar h]
  rfl

end

theorem padding_add_four (n : Nat) : padding (n + 4) = padding n := by
  unfold padding
  rw [Nat.add_mod_right]

theorem a2b_encoded (data : List UInt8) (leftchar pads : Nat) :
    a2bBase64 0 leftchar pads
      ((toSextets data).map standardChar ++ padding (toSextets data).length) = some data := by
  induction data using toSextets.induct generalizing leftchar pads with
  | case1 a b c rest ih =>
      have ha := a.toNat_lt
      have hb := b.toNat_lt
      have hc := c.toNat_lt
      simp only [toSextets, List.map_cons, List.length_cons, List.cons_append, padding_add_four]
      rw [a2b_first (by omega), a2b_second (by omega), a2b_third (by omega),
        a2b_fourth (by omega), ih]
      simp only [Option.map_some]
      rw [ofNat_eq_of_toNat (a := a) (by omega), ofNat_eq_of_toNat (a := b) (by omega),
        ofNat_eq_of_toNat (a := c) (by omega)]
  | case2 a b =>
      have ha := a.toNat_lt
      have hb := b.toNat_lt
      simp only [toSextets, List.map_cons, List.map_nil, List.cons_append, List.nil_append]
      rw [a2b_first (by omega), a2b_second (by omega), a2b_third (by omega)]
      have done : a2bBase64 3 (b.toNat % 16 * 4 % 4) 0 (padding 3) = some [] := rfl
      change ((a2bBase64 3 (b.toNat % 16 * 4 % 4) 0 (padding 3)).map _).map _ = _
      rw [done]
      simp only [Option.map_some]
      rw [ofNat_eq_of_toNat (a := a) (by omega), ofNat_eq_of_toNat (a := b) (by omega)]
  | case3 a =>
      have ha := a.toNat_lt
      simp only [toSextets, List.map_cons, List.map_nil, List.cons_append, List.nil_append]
      rw [a2b_first (by omega), a2b_second (by omega)]
      have done : a2bBase64 2 (a.toNat % 4 * 16 % 16) 0 (padding 2) = some [] := rfl
      change (a2bBase64 2 (a.toNat % 4 * 16 % 16) 0 (padding 2)).map _ = _
      rw [done]
      simp only [Option.map_some]
      rw [ofNat_eq_of_toNat (a := a) (by omega)]
  | case4 => rfl

theorem map_standard {n : Nat} (h : n < 64) : (fun c => if c = '-' then '+'
    else if c = '_' then '/' else c) (encodeSextet n) = standardChar n := by
  have table : ∀ n < 64, (if encodeSextet n = '-' then '+'
      else if encodeSextet n = '_' then '/' else encodeSextet n) = standardChar n := by decide
  exact table n h

theorem encodeSextet_ascii {n : Nat} (h : n < 64) : (encodeSextet n).toNat < 128 := by
  have table : ∀ n < 64, (encodeSextet n).toNat < 128 := by decide
  exact table n h

theorem mem_padding {n : Nat} {c : Char} (mem : c ∈ padding n) : c = '=' := by
  unfold padding at mem
  dsimp only at mem
  split at mem
  · exact List.eq_of_mem_replicate mem
  · cases mem

/-- The client reads what either side has encoded. -/
theorem b64uDecode_encode (data : List UInt8) :
    b64uDecode (Base64Url.encode data) = some data := by
  have small := toSextets_lt data
  unfold b64uDecode urlsafeB64decode Base64Url.encode
  rw [String.length_ofList, String.toList_ofList, List.length_map, if_pos, List.map_append]
  · have standard : ((toSextets data).map encodeSextet).map (fun c => if c = '-' then '+'
        else if c = '_' then '/' else c) = (toSextets data).map standardChar := by
      rw [List.map_map]
      exact List.map_congr_left fun n mem => map_standard (small n mem)
    have pads : (padding (toSextets data).length).map (fun c => if c = '-' then '+'
        else if c = '_' then '/' else c) = padding (toSextets data).length := by
      refine (List.map_congr_left fun c mem => ?_).trans (List.map_id _)
      rw [mem_padding mem]
      rfl
    rw [standard, pads]
    exact a2b_encoded data 0 0
  · rw [List.all_eq_true]
    intro c mem
    rcases List.mem_append.mp mem with mem | mem
    · obtain ⟨n, index, rfl⟩ := List.mem_map.mp mem
      exact decide_eq_true (encodeSextet_ascii (small n index))
    · rw [mem_padding mem]
      decide

/-- The server accepts a text exactly when the client would have written it for the bytes
that the client reads in it, and reads the same. -/
theorem codecs_agree (A : AppState) (text : String) (data : List UInt8) :
    b64Decode A text = .ok data ↔ b64uDecode text = some data ∧ b64uEncode data = text := by
  have strict : b64Decode A text = .ok data ↔ Base64Url.decode text = some data := by
    unfold b64Decode
    cases Base64Url.decode text <;> simp
  rw [strict, b64uEncode_eq]
  constructor
  · intro accepted
    obtain rfl := encode_decode accepted
    exact ⟨b64uDecode_encode data, rfl⟩
  · rintro ⟨-, rfl⟩
    exact decode_encode data

/-- The client alone reads the standard alphabet, noise and unused bits. -/
example : b64uDecode "+/8" = some [251, 255] ∧ Base64Url.decode "+/8" = none := by decide

end Smqtt.Codec
