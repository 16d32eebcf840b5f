import Mathlib.Data.List.Basic
import Mathlib.Tactic.IntervalCases

/-!
Base64 with the URL-safe alphabet and without padding. The decoder is strict:
it refuses characters outside the alphabet, impossible lengths and non-zero
bits in the unused part of the last character.
-/

namespace Base64Url

def encodeSextet (n : Nat) : Char :=
  if n < 26 then Char.ofNat (n + 65)
  else if n < 52 then Char.ofNat (n + 71)
  else if n < 62 then Char.ofNat (n - 4)
  else if n = 62 then '-'
  else '_'

def decodeSextet (c : Char) : Option Nat :=
  let n := c.toNat
  if 65 ≤ n ∧ n < 91 then some (n - 65)
  else if 97 ≤ n ∧ n < 123 then some (n - 71)
  else if 48 ≤ n ∧ n < 58 then some (n + 4)
  else if n = 45 then some 62
  else if n = 95 then some 63
  else none

def toSextets : List UInt8 → List Nat
  | a :: b :: c :: rest =>
      a.toNat / 4 :: (a.toNat % 4 * 16 + b.toNat / 16) ::
        (b.toNat % 16 * 4 + c.toNat / 64) :: c.toNat % 64 :: toSextets rest
  | [a, b] => [a.toNat / 4, a.toNat % 4 * 16 + b.toNat / 16, b.toNat % 16 * 4]
  | [a] => [a.toNat / 4, a.toNat % 4 * 16]
  | [] => []

def ofSextets : List Nat → Option (List UInt8)
  | a :: b :: c :: d :: rest => do
      let bytes ← ofSextets rest
      some (UInt8.ofNat (a * 4 + b / 16) :: UInt8.ofNat (b % 16 * 16 + c / 4) ::
        UInt8.ofNat (c % 4 * 64 + d) :: bytes)
  | [a, b, c] =>
      if c % 4 = 0 then
        some [UInt8.ofNat (a * 4 + b / 16), UInt8.ofNat (b % 16 * 16 + c / 4)]
      else none
  | [a, b] => if b % 16 = 0 then some [UInt8.ofNat (a * 4 + b / 16)] else none
  | [_] => none
  | [] => some []

def encode (bytes : List UInt8) : String :=
  String.ofList ((toSextets bytes).map encodeSextet)

def decode (text : String) : Option (List UInt8) := do
  ofSextets (← text.toList.mapM decodeSextet)

theorem decodeSextet_encodeSextet {n : Nat} (h : n < 64) :
    decodeSextet (encodeSextet n) = some n := by
  have table : ∀ n < 64, decodeSextet (encodeSextet n) = some n := by decide
  exact table n h

theorem toSextets_lt (bytes : List UInt8) : ∀ n ∈ toSextets bytes, n < 64 := by
  induction bytes using toSextets.induct with
  | case1 a b c rest ih =>
      have ha := a.toNat_lt
      have hb := b.toNat_lt
      have hc := c.toNat_lt
      intro n hn
      simp only [toSextets, List.mem_cons] at hn
      rcases hn with rfl | rfl | rfl | rfl | hn
      · omega
      · omega
      · omega
      · omega
      · exact ih n hn
  | case2 a b =>
      have ha := a.toNat_lt
      have hb := b.toNat_lt
      intro n hn
      simp only [toSextets, List.mem_cons, List.not_mem_nil, or_false] at hn
      rcases hn with rfl | rfl | rfl <;> omega
  | case3 a =>
      have ha := a.toNat_lt
      intro n hn
      simp only [toSextets, List.mem_cons, List.not_mem_nil, or_false] at hn
      rcases hn with rfl | rfl <;> omega
  | case4 => simp [toSextets]

theorem ofNat_eq_of_toNat {n : Nat} {a : UInt8} (h : n = a.toNat) : UInt8.ofNat n = a := by
  rw [h, UInt8.ofNat_toNat]

theorem ofSextets_toSextets (bytes : List UInt8) :
    ofSextets (toSextets bytes) = some bytes := by
  induction bytes using toSextets.induct with
  | case1 a b c rest ih =>
      have hb := b.toNat_lt
      have hc := c.toNat_lt
      simp only [toSextets, ofSextets, ih]
      rw [ofNat_eq_of_toNat (a := a) (by omega), ofNat_eq_of_toNat (a := b) (by omega),
        ofNat_eq_of_toNat (a := c) (by omega)]
      rfl
  | case2 a b =>
      have hb := b.toNat_lt
      simp only [toSextets, ofSextets]
      rw [if_pos (by omega), ofNat_eq_of_toNat (a := a) (by omega),
        ofNat_eq_of_toNat (a := b) (by omega)]
  | case3 a =>
      simp only [toSextets, ofSextets]
      rw [if_pos (by omega), ofNat_eq_of_toNat (a := a) (by omega)]
  | case4 => rfl

theorem mapM_decodeSextet (ns : List Nat) (h : ∀ n ∈ ns, n < 64) :
    (ns.map encodeSextet).mapM decodeSextet = some ns := by
  induction ns with
  | nil => rfl
  | cons n ns ih =>
      rw [List.map_cons, List.mapM_cons, decodeSextet_encodeSextet (h n List.mem_cons_self),
        ih fun m hm => h m (List.mem_cons_of_mem _ hm)]
      rfl

/-- Decoding undoes encoding. -/
theorem decode_encode (bytes : List UInt8) : decode (encode bytes) = some bytes := by
  unfold decode encode
  rw [String.toList_ofList, mapM_decodeSextet _ (toSextets_lt bytes)]
  exact ofSextets_toSextets bytes

theorem encodeSextet_decodeSextet {c : Char} {n : Nat} (decoded : decodeSextet c = some n) :
    encodeSextet n = c ∧ n < 64 := by
  have char : Char.ofNat c.toNat = c := Char.ofNat_toNat c
  unfold decodeSextet at decoded
  dsimp only at decoded
  split at decoded
  · obtain rfl := Option.some.inj decoded
    refine ⟨?_, by omega⟩
    rw [encodeSextet, if_pos (by omega), Nat.sub_add_cancel (by omega), char]
  · split at decoded
    · obtain rfl := Option.some.inj decoded
      refine ⟨?_, by omega⟩
      rw [encodeSextet, if_neg (by omega), if_pos (by omega), Nat.sub_add_cancel (by omega), char]
    · split at decoded
      · obtain rfl := Option.some.inj decoded
        refine ⟨?_, by omega⟩
        rw [encodeSextet, if_neg (by omega), if_neg (by omega), if_pos (by omega),
          Nat.add_sub_cancel, char]
      · split at decoded
        · rename_i dash
          obtain rfl := Option.some.inj decoded
          rw [← char, dash]
          exact ⟨rfl, by decide⟩
        · split at decoded
          · rename_i underscore
            obtain rfl := Option.some.inj decoded
            rw [← char, underscore]
            exact ⟨rfl, by decide⟩
          · cases decoded

theorem toNat_ofNat {n : Nat} (h : n < 256) : (UInt8.ofNat n).toNat = n :=
  UInt8.toNat_ofNat_of_lt' h

theorem toSextets_ofSextets {ns : List Nat} {bytes : List UInt8} (small : ∀ n ∈ ns, n < 64)
    (decoded : ofSextets ns = some bytes) : toSextets bytes = ns := by
  induction ns using ofSextets.induct generalizing bytes with
  | case1 a b c d rest ih =>
      obtain ⟨tail, later, same⟩ := Option.bind_eq_some_iff.mp decoded
      obtain rfl := Option.some.inj same
      simp only [List.forall_mem_cons] at small
      obtain ⟨ha, hb, hc, hd, smalls⟩ := small
      rw [toSextets, toNat_ofNat (by omega), toNat_ofNat (by omega), toNat_ofNat (by omega),
        ih smalls later]
      congr 4 <;> omega
  | case2 a b c unused =>
      rw [ofSextets, if_pos unused] at decoded
      obtain rfl := Option.some.inj decoded
      simp only [List.forall_mem_cons] at small
      obtain ⟨ha, hb, hc, -⟩ := small
      rw [toSextets, toNat_ofNat (by omega), toNat_ofNat (by omega)]
      congr 3 <;> omega
  | case3 a b c used =>
      rw [ofSextets, if_neg used] at decoded
      cases decoded
  | case4 a b unused =>
      rw [ofSextets, if_pos unused] at decoded
      obtain rfl := Option.some.inj decoded
      simp only [List.forall_mem_cons] at small
      obtain ⟨ha, hb, -⟩ := small
      rw [toSextets, toNat_ofNat (by omega)]
      congr 2 <;> omega
  | case5 a b used =>
      rw [ofSextets, if_neg used] at decoded
      cases decoded
  | case6 a => cases decoded
  | case7 =>
      obtain rfl := Option.some.inj decoded
      rfl

theorem mapM_encodeSextet {cs : List Char} {ns : List Nat}
    (decoded : cs.mapM decodeSextet = some ns) :
    ns.map encodeSextet = cs ∧ ∀ n ∈ ns, n < 64 := by
  induction cs generalizing ns with
  | nil =>
      obtain rfl := Option.some.inj decoded
      exact ⟨rfl, by simp⟩
  | cons c cs ih =>
      rw [List.mapM_cons] at decoded
      obtain ⟨n, head, decoded⟩ := Option.bind_eq_some_iff.mp decoded
      obtain ⟨ms, tail, decoded⟩ := Option.bind_eq_some_iff.mp decoded
      obtain rfl := Option.some.inj decoded
      obtain ⟨char, small⟩ := encodeSextet_decodeSextet head
      obtain ⟨chars, smalls⟩ := ih tail
      exact ⟨by rw [List.map_cons, char, chars], List.forall_mem_cons.mpr ⟨small, smalls⟩⟩

/-- Only what `encode` writes decodes. -/
theorem encode_decode {text : String} {bytes : List UInt8} (decoded : decode text = some bytes) :
    encode bytes = text := by
  obtain ⟨ns, read, decoded⟩ := Option.bind_eq_some_iff.mp decoded
  obtain ⟨chars, small⟩ := mapM_encodeSextet read
  rw [encode, toSextets_ofSextets small decoded, chars, String.ofList_toList]

/-- The text is made of letters, digits, dashes and underscores only. -/
theorem encode_chars (bytes : List UInt8) :
    ∀ c ∈ (encode bytes).toList, c ≠ '/' ∧ c ≠ '+' ∧ c ≠ '#' := by
  intro c hc
  rw [encode, String.toList_ofList] at hc
  obtain ⟨n, hn, rfl⟩ := List.mem_map.mp hc
  have table : ∀ n < 64,
      encodeSextet n ≠ '/' ∧ encodeSextet n ≠ '+' ∧ encodeSextet n ≠ '#' := by decide
  exact table n (toSextets_lt bytes n hn)

end Base64Url
