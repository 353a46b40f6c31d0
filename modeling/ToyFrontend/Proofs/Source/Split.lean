import ToyFrontend.Source.Cursor

namespace ToyFrontend
namespace Source

/-!
# Splitting a text behind its bytes

A text is divided by the number of bytes before the division.  Which numbers divide
it is not for `splitBytes?` to say: they are the sizes of its beginnings, and these
are the places that the core library calls valid positions.
-/

/-- A division behind the beginning of a text is one of the rest. -/
theorem splitBytes?_append (front text : List Char) (count : Nat) :
    splitBytes? ((String.ofList front).utf8ByteSize + count) (front ++ text) =
      (splitBytes? count text).map fun (passed, rest) => (front ++ passed, rest) := by
  induction front with
  | nil =>
      rw [String.ofList_nil, String.utf8ByteSize_empty, Nat.zero_add]
      exact Option.map_id'.symm
  | cons character front inductionHypothesis =>
      have width := character.utf8Size_pos
      rcases Nat.exists_eq_add_one.mpr width with ⟨fewer, same⟩
      have size : (String.ofList (character :: front)).utf8ByteSize + count =
          (fewer + (String.ofList front).utf8ByteSize + count) + 1 := by
        rw [String.ofList_cons, String.utf8ByteSize_append, String.utf8ByteSize_singleton, same]
        omega
      have behind : fewer + (String.ofList front).utf8ByteSize + count + 1 - (fewer + 1) =
          (String.ofList front).utf8ByteSize + count := by omega
      rw [size, List.cons_append, splitBytes?, same, if_pos (by omega), behind,
        inductionHypothesis, Option.map_map]
      rfl

theorem size_of_splitBytes? {count : Nat} {text passed rest : List Char}
    (split : splitBytes? count text = some (passed, rest)) :
    (String.ofList passed).utf8ByteSize = count := by
  induction text generalizing count passed with
  | nil =>
      cases count with
      | zero =>
          cases split
          rfl
      | succ count => cases split
  | cons character text inductionHypothesis =>
      cases count with
      | zero =>
          cases split
          rfl
      | succ count =>
          rw [splitBytes?] at split
          split at split
          next fits =>
            rcases Option.map_eq_some_iff.mp split with ⟨⟨front, behind⟩, inner, same⟩
            cases same
            rw [String.ofList_cons, String.utf8ByteSize_append, String.utf8ByteSize_singleton,
              inductionHypothesis inner]
            omega
          next => cases split

/-- The two parts of a text determine where it was divided, and are determined by it. -/
theorem splitBytes?_eq_some_iff {count : Nat} {text passed rest : List Char} :
    splitBytes? count text = some (passed, rest) ↔
      text = passed ++ rest ∧ (String.ofList passed).utf8ByteSize = count := by
  constructor
  · intro split
    exact ⟨(append_of_splitBytes? split).symm, size_of_splitBytes? split⟩
  · rintro ⟨rfl, rfl⟩
    have split := splitBytes?_append passed rest 0
    simpa only [splitBytes?, Option.map_some, List.append_nil, Nat.add_zero] using split

/-- The size of a beginning determines it. -/
theorem append_inj_of_size {first second behind other : List Char}
    (same : first ++ behind = second ++ other)
    (size : (String.ofList first).utf8ByteSize = (String.ofList second).utf8ByteSize) :
    first = second ∧ behind = other := by
  have split := splitBytes?_eq_some_iff.mpr ⟨same, size.symm⟩
  rw [splitBytes?_eq_some_iff.mpr ⟨rfl, rfl⟩] at split
  cases split
  exact ⟨rfl, rfl⟩

/-- A text can be divided behind exactly those numbers of bytes that end with a character. -/
theorem splitBytes?_eq_none_iff {count : Nat} {text : List Char} :
    splitBytes? count text = none ↔ ¬ (String.Pos.Raw.mk count).IsValid (String.ofList text) := by
  rw [String.Pos.Raw.isValid_ofList]
  constructor
  · rintro missing ⟨length, size⟩
    have split := splitBytes?_eq_some_iff.mpr
      ⟨(List.take_append_drop length text).symm, size.symm⟩
    rw [missing] at split
    cases split
  · intro invalid
    cases split : splitBytes? count text with
    | none => rfl
    | some parts =>
        rcases splitBytes?_eq_some_iff.mp split with ⟨shape, size⟩
        refine absurd ⟨parts.1.length, ?_⟩ invalid
        rw [shape, List.take_left, size]

end Source
end ToyFrontend
