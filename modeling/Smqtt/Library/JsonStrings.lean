import Mathlib.Data.List.Basic
import Mathlib.Data.Char

/-!
JSON arrays of strings. The encoder writes no white space, the short escapes
where JSON has them and `\u00XX` for the other control characters. The decoder
reads any JSON text of this shape and nothing after it.
-/

namespace JsonStrings

def quote : Char := Char.ofNat 34
def backslash : Char := Char.ofNat 92

def hexDigit (n : Nat) : Char :=
  if n < 10 then Char.ofNat (n + 48) else Char.ofNat (n + 87)

def hexValue (c : Char) : Option Nat :=
  let n := c.toNat
  if 48 ≤ n ∧ n < 58 then some (n - 48)
  else if 97 ≤ n ∧ n < 103 then some (n - 87)
  else if 65 ≤ n ∧ n < 71 then some (n - 55)
  else none

/-- The letter after the backslash, for the characters that have a short escape. -/
def shortEscape (c : Char) : Option Char :=
  if c = quote then some quote
  else if c = backslash then some backslash
  else if c.toNat = 8 then some 'b'
  else if c.toNat = 9 then some 't'
  else if c.toNat = 10 then some 'n'
  else if c.toNat = 12 then some 'f'
  else if c.toNat = 13 then some 'r'
  else none

def shortUnescape (c : Char) : Option Char :=
  if c = quote ∨ c = backslash ∨ c = '/' then some c
  else if c = 'b' then some (Char.ofNat 8)
  else if c = 't' then some (Char.ofNat 9)
  else if c = 'n' then some (Char.ofNat 10)
  else if c = 'f' then some (Char.ofNat 12)
  else if c = 'r' then some (Char.ofNat 13)
  else none

def escape (c : Char) : List Char :=
  match shortEscape c with
  | some e => [backslash, e]
  | none =>
      if c.toNat < 32 then
        [backslash, 'u', '0', '0', hexDigit (c.toNat / 16), hexDigit (c.toNat % 16)]
      else [c]

def encodeBody (s : List Char) : List Char := s.flatMap escape ++ [quote]

def encodeElements : List String → List Char
  | [] => [']']
  | [s] => quote :: (encodeBody s.toList ++ [']'])
  | s :: t :: rest => quote :: (encodeBody s.toList ++ ',' :: encodeElements (t :: rest))

def encode (xs : List String) : String := String.ofList ('[' :: encodeElements xs)

def hex4 : List Char → Option (Nat × List Char)
  | a :: b :: c :: d :: rest => do
      let a ← hexValue a
      let b ← hexValue b
      let c ← hexValue c
      let d ← hexValue d
      some (((a * 16 + b) * 16 + c) * 16 + d, rest)
  | _ => none

/-- After `\u`: a scalar value, or the two halves of a surrogate pair. -/
def readUnicode (cs : List Char) : Option (Char × List Char) := do
  let (n, rest) ← hex4 cs
  if 55296 ≤ n ∧ n < 56320 then
    match rest with
    | b :: u :: rest =>
        if b = backslash ∧ u = 'u' then do
          let (m, rest) ← hex4 rest
          if 56320 ≤ m ∧ m < 57344 then
            some (Char.ofNat (65536 + (n - 55296) * 1024 + (m - 56320)), rest)
          else none
        else none
    | _ => none
  else if 56320 ≤ n ∧ n < 57344 then none
  else some (Char.ofNat n, rest)

/-- After the opening quote, up to and including the closing one. -/
def readBody : Nat → List Char → Option (List Char × List Char)
  | 0, _ => none
  | _ + 1, [] => none
  | fuel + 1, c :: rest =>
      if c = quote then some ([], rest)
      else if c = backslash then
        match rest with
        | [] => none
        | e :: rest => do
            let (d, rest) ← if e = 'u' then readUnicode rest
              else (shortUnescape e).map fun d => (d, rest)
            let (s, rest) ← readBody fuel rest
            some (d :: s, rest)
      else if c.toNat < 32 then none
      else do
        let (s, rest) ← readBody fuel rest
        some (c :: s, rest)

def skipSpace (cs : List Char) : List Char :=
  cs.dropWhile fun c => c = ' ' || c.toNat = 9 || c.toNat = 10 || c.toNat = 13

/-- After `[` or a comma: one or more strings up to the closing bracket. -/
def readElements : Nat → List Char → Option (List String × List Char)
  | 0, _ => none
  | fuel + 1, cs =>
      match skipSpace cs with
      | q :: rest =>
          if q = quote then do
            let (s, rest) ← readBody (rest.length + 1) rest
            match skipSpace rest with
            | c :: rest =>
                if c = ',' then do
                  let (xs, rest) ← readElements fuel rest
                  some (String.ofList s :: xs, rest)
                else if c = ']' then some ([String.ofList s], rest)
                else none
            | [] => none
          else none
      | [] => none

def decode (text : String) : Option (List String) :=
  match skipSpace text.toList with
  | b :: rest =>
      if b = '[' then do
        let (xs, rest) ← match skipSpace rest with
          | c :: tail =>
              if c = ']' then some ([], tail) else readElements (tail.length + 1) (c :: tail)
          | [] => none
        if skipSpace rest = [] then some xs else none
      else none
  | [] => none

theorem shortUnescape_of_shortEscape {c e : Char} (h : shortEscape c = some e) :
    e ≠ 'u' ∧ shortUnescape e = some c := by
  have ofNat {n : Nat} (hn : c.toNat = n) : Char.ofNat n = c := by
    rw [← hn, Char.ofNat_toNat]
  unfold shortEscape at h
  split_ifs at h with h₁ h₂ h₃ h₄ h₅ h₆ h₇
  · obtain rfl := Option.some.inj h
    subst h₁
    exact ⟨by decide, by decide⟩
  · obtain rfl := Option.some.inj h
    subst h₂
    exact ⟨by decide, by decide⟩
  · obtain rfl := Option.some.inj h
    exact ⟨by decide, (by decide : shortUnescape 'b' = some (Char.ofNat 8)).trans
      (congrArg some (ofNat h₃))⟩
  · obtain rfl := Option.some.inj h
    exact ⟨by decide, (by decide : shortUnescape 't' = some (Char.ofNat 9)).trans
      (congrArg some (ofNat h₄))⟩
  · obtain rfl := Option.some.inj h
    exact ⟨by decide, (by decide : shortUnescape 'n' = some (Char.ofNat 10)).trans
      (congrArg some (ofNat h₅))⟩
  · obtain rfl := Option.some.inj h
    exact ⟨by decide, (by decide : shortUnescape 'f' = some (Char.ofNat 12)).trans
      (congrArg some (ofNat h₆))⟩
  · obtain rfl := Option.some.inj h
    exact ⟨by decide, (by decide : shortUnescape 'r' = some (Char.ofNat 13)).trans
      (congrArg some (ofNat h₇))⟩

theorem hexValue_hexDigit {n : Nat} (h : n < 16) : hexValue (hexDigit n) = some n := by
  have table : ∀ n < 16, hexValue (hexDigit n) = some n := by decide
  exact table n h

theorem readUnicode_control {c : Char} (h : c.toNat < 32) (rest : List Char) :
    readUnicode ('0' :: '0' :: hexDigit (c.toNat / 16) :: hexDigit (c.toNat % 16) :: rest) =
      some (c, rest) := by
  have zero : hexValue '0' = some 0 := by decide
  have joined : ((0 * 16 + 0) * 16 + c.toNat / 16) * 16 + c.toNat % 16 = c.toNat := by
    omega
  have hex : hex4 ('0' :: '0' :: hexDigit (c.toNat / 16) :: hexDigit (c.toNat % 16) :: rest) =
      some (c.toNat, rest) := by
    simp only [hex4, zero, hexValue_hexDigit (show c.toNat / 16 < 16 by omega),
      hexValue_hexDigit (show c.toNat % 16 < 16 by omega), Option.bind_eq_bind,
      Option.bind_some, joined]
  simp only [readUnicode, hex, Option.bind_eq_bind, Option.bind_some]
  rw [if_neg (by omega), if_neg (by omega), Char.ofNat_toNat]

/-- The reader takes one escaped character off its input. -/
theorem readBody_escape (fuel : Nat) (c : Char) (rest : List Char) :
    readBody (fuel + 1) (escape c ++ rest) =
      (readBody fuel rest).map fun r => (c :: r.1, r.2) := by
  have hb : backslash ≠ quote := by decide
  unfold escape
  cases he : shortEscape c with
  | some e =>
      obtain ⟨hu, hs⟩ := shortUnescape_of_shortEscape he
      simp only [List.cons_append, List.nil_append, readBody, if_neg hb, if_true,
        if_neg hu, hs, Option.map_some, Option.bind_eq_bind, Option.bind_some]
      cases readBody fuel rest <;> rfl
  | none =>
      by_cases hc : c.toNat < 32
      · simp only [if_pos hc, List.cons_append, List.nil_append, readBody, if_neg hb, if_true,
          readUnicode_control hc, Option.bind_eq_bind, Option.bind_some]
        cases readBody fuel rest <;> rfl
      · have hq : c ≠ quote := by
          rintro rfl
          simp [shortEscape] at he
        have hs : c ≠ backslash := by
          rintro rfl
          simp [shortEscape, hb] at he
        simp only [if_neg hc, List.cons_append, List.nil_append, readBody, if_neg hq,
          if_neg hs, Option.bind_eq_bind]
        cases readBody fuel rest <;> rfl

theorem readBody_encodeBody (s : List Char) (fuel : Nat) (rest : List Char)
    (h : s.length < fuel) : readBody fuel (encodeBody s ++ rest) = some (s, rest) := by
  induction s generalizing fuel with
  | nil =>
      obtain ⟨fuel, rfl⟩ := Nat.exists_eq_add_of_lt h
      simp [encodeBody, readBody]
  | cons c s ih =>
      cases fuel with
      | zero => simp at h
      | succ fuel =>
          have shape : encodeBody (c :: s) ++ rest = escape c ++ (encodeBody s ++ rest) := by
            simp [encodeBody, List.append_assoc]
          rw [shape, readBody_escape, ih fuel (by simpa using h)]
          rfl

theorem escape_length_pos (c : Char) : 0 < (escape c).length := by
  unfold escape
  cases shortEscape c with
  | some e => simp
  | none =>
      by_cases hc : c.toNat < 32
      · simp [hc]
      · simp [hc]

theorem length_lt_encodeBody (s : List Char) : s.length < (encodeBody s).length := by
  induction s with
  | nil => simp [encodeBody]
  | cons c s ih =>
      have := escape_length_pos c
      simp only [encodeBody, List.flatMap_cons, List.length_append, List.length_cons,
        List.length_nil] at ih ⊢
      omega

theorem skipSpace_cons {c : Char} (rest : List Char)
    (h : (c = ' ' || c.toNat = 9 || c.toNat = 10 || c.toNat = 13) = false) :
    skipSpace (c :: rest) = c :: rest := by
  simp only [skipSpace, List.dropWhile_cons, h, Bool.false_eq_true, if_false]

theorem readElements_encodeElements (x : String) (xs : List String) (fuel : Nat)
    (h : xs.length < fuel) :
    readElements fuel (encodeElements (x :: xs)) = some (x :: xs, []) := by
  induction xs generalizing x fuel with
  | nil =>
      obtain ⟨fuel, rfl⟩ := Nat.exists_eq_add_of_lt h
      have body := readBody_encodeBody x.toList ((encodeBody x.toList ++ [']']).length + 1)
        [']'] (by
          have := length_lt_encodeBody x.toList
          simp only [List.length_append]
          omega)
      simp only [encodeElements, readElements]
      rw [skipSpace_cons _ (by decide)]
      simp only [if_true, body, Option.bind_eq_bind, Option.bind_some]
      rw [skipSpace_cons _ (by decide)]
      simp
  | cons y xs ih =>
      cases fuel with
      | zero => simp at h
      | succ fuel =>
          have body := readBody_encodeBody x.toList
            ((encodeBody x.toList ++ ',' :: encodeElements (y :: xs)).length + 1)
            (',' :: encodeElements (y :: xs)) (by
              have := length_lt_encodeBody x.toList
              simp only [List.length_append]
              omega)
          simp only [encodeElements, readElements]
          rw [skipSpace_cons _ (by decide)]
          simp only [if_true, body, Option.bind_eq_bind, Option.bind_some]
          rw [skipSpace_cons _ (by decide)]
          simp only [if_true, ih y fuel (by simpa using h), Option.bind_some,
            String.ofList_toList]

theorem length_lt_encodeElements (x : String) (xs : List String) :
    xs.length < (encodeElements (x :: xs)).length := by
  induction xs generalizing x with
  | nil => simp [encodeElements]
  | cons y xs ih =>
      have := ih y
      simp only [encodeElements, List.length_cons, List.length_append]
      omega

theorem decode_encode (xs : List String) : decode (encode xs) = some xs := by
  unfold decode encode
  rw [String.toList_ofList, skipSpace_cons _ (by decide)]
  cases xs with
  | nil =>
      simp only [encodeElements, if_true]
      rw [skipSpace_cons _ (by decide)]
      rfl
  | cons x xs =>
      have elements := readElements_encodeElements x xs _ (length_lt_encodeElements x xs)
      have head : ∃ cs, encodeElements (x :: xs) = quote :: cs := by
        cases xs with
        | nil => exact ⟨_, rfl⟩
        | cons y xs => exact ⟨_, rfl⟩
      obtain ⟨cs, hcs⟩ := head
      simp only [if_true, hcs] at elements ⊢
      rw [skipSpace_cons _ (by decide)]
      have hq : quote ≠ ']' := by decide
      simp only [if_neg hq]
      rw [← List.length_cons, elements]
      rfl

end JsonStrings
