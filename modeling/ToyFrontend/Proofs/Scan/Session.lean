import ToyFrontend.Proofs.Place
import ToyFrontend.Proofs.Source.Split
import ToyFrontend.Scan.Session

namespace ToyFrontend

/-!
# Passing a document in steps

A document may be passed in steps of any numbers of bytes, and steps that are not
possible may be tried in between.  Wherever the cursor comes to stand, it divides the
document: its position counts the text before it, and nothing but the text behind is
ahead of it.  So a cursor is what the text before it makes it, and the steps that led
there have left no trace.

Whether a step is possible can therefore be asked of the document.  It is possible
when the bytes of the document up to there are whole characters.
-/

namespace Source
namespace Cursor

/-- The text before the cursor is counted by its position, and the rest of the document is ahead
of it. -/
def Divides (cursor : Cursor) (document : String) : Prop :=
  Exists fun passed => document = passed ++ String.ofList cursor.remaining ∧
    cursor.position.Counts passed

variable {cursor next middle : Cursor} {document : String} {count : Nat}

theorem divides_ofText (document : String) : (ofText document.toList).Divides document :=
  ⟨"", by rw [ofText, String.ofList_toList, String.empty_append], Position.counts_start⟩

/-- A cursor in a document is determined by its offset. -/
theorem Divides.unique {other : Cursor} (divides : cursor.Divides document)
    (again : other.Divides document) (here : other.position.offset = cursor.position.offset) :
    other = cursor := by
  rcases divides with ⟨passed, rfl, counts⟩
  rcases again with ⟨before, shape, countsAgain⟩
  have size : passed.utf8ByteSize = before.utf8ByteSize := by
    rw [← counts.offset, ← countsAgain.offset, here]
  rw [← @String.ofList_toList passed, ← @String.ofList_toList before] at shape size
  rw [← String.ofList_append, ← String.ofList_append, String.ofList_inj] at shape
  rcases append_inj_of_size shape size with ⟨samePassed, sameRemaining⟩
  rw [String.toList_inj] at samePassed
  subst samePassed
  rcases cursor with ⟨position, remaining⟩
  rw [Cursor.mk.injEq]
  exact ⟨counts.unique countsAgain, sameRemaining.symm⟩

theorem passBytes?_eq_some_iff :
    cursor.passBytes? count = some next ↔
      Exists fun passed => cursor.remaining = passed ++ next.remaining ∧
        (String.ofList passed).utf8ByteSize = count ∧
        next.position = cursor.position.after passed := by
  unfold passBytes?
  constructor
  · intro passes
    rcases Option.map_eq_some_iff.mp passes with ⟨⟨passed, rest⟩, split, same⟩
    cases same
    rcases splitBytes?_eq_some_iff.mp split with ⟨shape, size⟩
    exact ⟨passed, shape, size, rfl⟩
  · rintro ⟨passed, shape, size, place⟩
    rw [splitBytes?_eq_some_iff.mpr ⟨shape, size⟩, Option.map_some]
    dsimp only
    rw [← place]

theorem Divides.behind (divides : cursor.Divides document)
    (passes : cursor.passBytes? count = some next) : next.Divides document := by
  rcases divides with ⟨before, shape, counts⟩
  rcases passBytes?_eq_some_iff.mp passes with ⟨passed, ahead, -, place⟩
  refine ⟨before ++ String.ofList passed, ?_, ?_⟩
  · rw [shape, ahead, String.ofList_append, String.append_assoc]
  · rw [← @String.ofList_toList before] at counts
    rw [place, ← @String.ofList_toList before, ← String.ofList_append]
    exact counts.after passed

/-- Bytes can be passed unless they end beyond the document or inside a character. -/
theorem Divides.passBytes?_eq_none_iff (divides : cursor.Divides document) :
    cursor.passBytes? count = none ↔
      ¬ (String.Pos.Raw.mk (cursor.position.offset + count)).IsValid document := by
  rcases divides with ⟨passed, rfl, counts⟩
  have beyond : passed.rawEndPos <= String.Pos.Raw.mk (cursor.position.offset + count) := by
    rw [String.Pos.Raw.le_iff, counts.offset]
    exact Nat.le_add_right _ _
  have ahead : String.Pos.Raw.mk (cursor.position.offset + count) - passed =
      String.Pos.Raw.mk count := by
    rw [counts.offset]
    exact String.Pos.Raw.ext (Nat.add_sub_cancel_left _ _)
  rw [passBytes?, Option.map_eq_none_iff, splitBytes?_eq_none_iff, String.Pos.Raw.isValid_append,
    ahead]
  apply not_congr
  constructor
  · intro valid
    exact .inr ⟨beyond, valid⟩
  · rintro (atEnd | ⟨-, valid⟩)
    · -- A place within the text before the cursor is the cursor's own.
      have size := atEnd.le_utf8ByteSize
      rw [counts.offset] at size
      have nothing : count = 0 := by
        simp only [String.utf8ByteSize] at size
        omega
      subst nothing
      exact String.Pos.Raw.isValid_zero
    · exact valid

/-- Bytes may be passed in two portions. -/
theorem passBytes?_add (first : cursor.passBytes? count = some middle) (more : Nat) :
    cursor.passBytes? (count + more) = middle.passBytes? more := by
  rcases passBytes?_eq_some_iff.mp first with ⟨passed, shape, rfl, place⟩
  rw [passBytes?, shape, splitBytes?_append, Option.map_map, passBytes?, place]
  apply congrFun
  apply congrArg
  funext ⟨behind, rest⟩
  dsimp only [Function.comp]
  rw [Position.after_append]

theorem atEnd_iff : cursor.atEnd = true ↔ cursor.remaining = [] :=
  List.isEmpty_iff

/-- Nothing is ahead where the offset is the size of the document. -/
theorem Divides.remaining_eq_nil_iff (divides : cursor.Divides document) :
    cursor.remaining = [] ↔ document.utf8ByteSize <= cursor.position.offset := by
  rcases divides with ⟨passed, rfl, counts⟩
  rw [String.utf8ByteSize_append, counts.offset]
  constructor
  · intro nothing
    rw [nothing]
    exact Nat.le_refl _
  · intro within
    have empty : (String.ofList cursor.remaining).utf8ByteSize = 0 := by omega
    have same := String.utf8ByteSize_eq_zero_iff.mp empty
    rw [← @String.toList_ofList cursor.remaining, same, String.toList_empty]

end Cursor
end Source

namespace Scan
namespace Session

/-- The session after several steps, possible or not. -/
def after (session : Session) (actions : List Action) : Session :=
  actions.foldl step session

/-- What holds of a session over a document, and what the next step does. -/
structure Obeys (source : String) (session : Session) : Prop where
  divides : session.cursor.Divides source
  /-- No other way leads to another place with this offset. -/
  determined : forall other : Source.Cursor, other.Divides source ->
    other.position.offset = session.cursor.position.offset -> other = session.cursor
  ahead : forall character, session.cursor.ahead? = some character ↔
    Exists fun rest => session.cursor.remaining = character :: rest
  atEnd : session.cursor.atEnd = true ↔ session.cursor.remaining = []
  atSize : session.cursor.atEnd = true ↔ source.utf8ByteSize <= session.cursor.position.offset
  /-- Bytes that end beyond the document or inside a character are refused, and no others. -/
  refuses : forall bytes, session.step? (.pass bytes) = none ↔
    source.utf8ByteSize < session.cursor.position.offset + bytes ∨
      ¬ (String.Pos.Raw.mk (session.cursor.position.offset + bytes)).IsValid source
  unchanged : forall action, session.step? action = none -> session.step action = session
  pushes : forall token,
    session.step (.push token) = { session with tokens := session.tokens ++ [token] }
  /-- Behind a portion that can be passed, the rest is passed or refused as it is together with
  this portion. -/
  joins : forall bytes more middle, session.step? (.pass bytes) = some middle ->
    session.step? (.pass (bytes + more)) = middle.step? (.pass more)

variable {source : String} {session : Session}

theorem divides_ofSource (source : String) : (ofSource source).cursor.Divides source :=
  Source.Cursor.divides_ofText source

theorem divides_step (divides : session.cursor.Divides source) (action : Action) :
    (session.step action).cursor.Divides source := by
  cases action with
  | look => exact divides
  | push token => exact divides
  | pass bytes =>
      rw [step, step?]
      cases passes : session.cursor.passBytes? bytes with
      | none => exact divides
      | some next => exact divides.behind passes

theorem divides_after (divides : session.cursor.Divides source) (actions : List Action) :
    (session.after actions).cursor.Divides source := by
  induction actions generalizing session with
  | nil => exact divides
  | cons action actions inductionHypothesis =>
      exact inductionHypothesis (divides_step divides action)

theorem obeys_of_divides (divides : session.cursor.Divides source) : Obeys source session where
  divides := divides
  determined other := divides.unique
  ahead character := List.head?_eq_some_iff
  atEnd := Source.Cursor.atEnd_iff
  atSize := Source.Cursor.atEnd_iff.trans divides.remaining_eq_nil_iff
  refuses bytes := by
    rw [step?, Option.map_eq_none_iff, divides.passBytes?_eq_none_iff]
    constructor
    · exact .inr
    · rintro (beyond | inside)
      · intro valid
        exact absurd valid.le_utf8ByteSize (Nat.not_le.mpr beyond)
      · exact inside
  unchanged action refused := by rw [step, refused, Option.getD_none]
  pushes token := rfl
  joins bytes more middle passes := by
    rcases Option.map_eq_some_iff.mp passes with ⟨next, passesNext, rfl⟩
    rw [step?, step?, Source.Cursor.passBytes?_add passesNext]

/-- Along any steps a session is true to its document, and the next step does what it is asked
to or nothing. -/
theorem obeys_along_steps (source : String) (actions : List Action) :
    Obeys source ((ofSource source).after actions) :=
  obeys_of_divides (divides_after (divides_ofSource source) actions)

/-- A letter of two bytes is not passed by half. -/
example : (ofSource "é\nx").after [.pass 1, .pass 3] =
    { cursor := { position := ⟨3, 2, 1⟩, remaining := ['x'] }, tokens := [] } := by
  decide

end Session
end Scan
end ToyFrontend
