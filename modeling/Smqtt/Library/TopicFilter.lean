import Mathlib.Data.List.Basic

/-!
MQTT topic filters. Topics and filters are split into levels at slashes; a
`+` level of a filter matches one level and a final `#` level matches any suffix,
but neither stands for a first level that begins with a dollar sign.
-/

namespace TopicFilter

def levels (t : String) : List (List Char) := t.toList.splitOn '/'

def matchLevels : List (List Char) → List (List Char) → Bool
  | [['#']], _ => true
  | ['+'] :: fs, _ :: ts => matchLevels fs ts
  | f :: fs, t :: ts => f == t && matchLevels fs ts
  | [], [] => true
  | _, _ => false

/-- The first level is a wildcard. -/
def leadsWild : List (List Char) → Bool
  | f :: _ => f == ['+'] || f == ['#']
  | [] => false

/-- Topics of the broker's own: the first level begins with a dollar sign. -/
def reserved : List (List Char) → Bool
  | ('$' :: _) :: _ => true
  | _ => false

/-- `Matches f t`: a message published on `t` is delivered to a subscription to `f`. -/
def Matches (f t : String) : Prop :=
  (leadsWild (levels f) && reserved (levels t)) = false ∧ matchLevels (levels f) (levels t) = true

instance (f t : String) : Decidable (Matches f t) :=
  inferInstanceAs (Decidable (_ ∧ _))

/-- A level of a filter: a wildcard, or free of the characters of wildcards. -/
def validLevel (l : List Char) : Bool :=
  l == ['+'] || l.all fun c => c != '+' && c != '#' && c.toNat != 0

/-- A `#` is the last level, and no level begins with a dollar sign. -/
def validLevels : List (List Char) → Bool
  | [] => true
  | [['#']] => true
  | l :: ls => validLevel l && l.head? != some '$' && validLevels ls

/-- A filter that every broker takes: one that is not empty, whose wildcards are whole
levels, and that is none of the reserved filters. -/
def Valid (f : String) : Prop := f ≠ "" ∧ validLevels (levels f) = true

instance (f : String) : Decidable (Valid f) := inferInstanceAs (Decidable (_ ∧ _))

/-- No level of the filter is a wildcard. -/
def Plain (f : String) : Prop := ∀ l ∈ levels f, l ≠ ['+'] ∧ l ≠ ['#']

theorem matchLevels_self (ls : List (List Char)) : matchLevels ls ls = true := by
  induction ls with
  | nil => rfl
  | cons l ls ih =>
      unfold matchLevels
      split
      · rfl
      · simp_all
      · simp_all
      · simp_all
      · rename_i other _
        exact (other l ls l ls rfl rfl).elim

theorem not_leadsWild_of_reserved {ls : List (List Char)} (own : reserved ls = true) :
    leadsWild ls = false := by
  unfold reserved at own
  split at own
  · rfl
  · cases own

theorem matches_self (t : String) : Matches t t := by
  refine ⟨?_, matchLevels_self _⟩
  cases own : reserved (levels t) with
  | true => rw [not_leadsWild_of_reserved own, Bool.false_and]
  | false => exact Bool.and_false _

theorem eq_of_matchLevels_plain {fs ts : List (List Char)}
    (plain : ∀ l ∈ fs, l ≠ ['+'] ∧ l ≠ ['#']) (h : matchLevels fs ts = true) : fs = ts := by
  induction fs generalizing ts with
  | nil =>
      cases ts with
      | nil => rfl
      | cons t ts => simp [matchLevels] at h
  | cons f fs ih =>
      have hf := plain f List.mem_cons_self
      unfold matchLevels at h
      split at h
      · simp_all
      · simp_all
      · rename_i heq
        obtain ⟨rfl, rfl⟩ := List.cons.inj heq
        simp only [Bool.and_eq_true, beq_iff_eq] at h
        rw [h.1, ih (fun l hl => plain l (List.mem_cons_of_mem _ hl)) h.2]
      · simp_all
      · simp at h

theorem levels_injective {s t : String} (h : levels s = levels t) : s = t := by
  have joined := congrArg (['/'].intercalate ·) h
  simp only [levels, List.intercalate_splitOn] at joined
  exact String.toList_injective joined

/-- A filter without wildcards matches the topic it names and no other. -/
theorem eq_of_matches_plain {f t : String} (plain : Plain f) (h : Matches f t) : f = t :=
  levels_injective (eq_of_matchLevels_plain plain h.2)

theorem levels_of_no_slash {t : String} (h : '/' ∉ t.toList) : levels t = [t.toList] := by
  unfold levels
  exact List.splitOn_eq_singleton h

/-- Characters outside the MQTT syntax cannot form a wildcard. -/
theorem plain_of_chars {t : String}
    (h : ∀ c ∈ t.toList, c ≠ '/' ∧ c ≠ '+' ∧ c ≠ '#') : Plain t := by
  have slash : '/' ∉ t.toList := fun hc => (h _ hc).1 rfl
  intro l hl
  rw [levels_of_no_slash slash] at hl
  obtain rfl := List.mem_singleton.mp hl
  refine ⟨fun he => ?_, fun he => ?_⟩
  · exact (h '+' (by simp [he])).2.1 rfl
  · exact (h '#' (by simp [he])).2.2 rfl

end TopicFilter
