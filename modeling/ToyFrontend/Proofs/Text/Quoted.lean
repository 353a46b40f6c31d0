import ToyFrontend.Text.Quoted

namespace ToyFrontend
namespace Text
namespace Quoted

/-!
# Literals and their values

`Denotes` relates what stands between the quotes of a literal to its value, one
character or one escape at a time.  A reader of literals finds exactly this: it
goes on as long as there is content, and what stands behind the content decides.
So what it takes for a literal is content and a closing quote, and every content
with a quote behind it is read in full.
-/

/-- Content between quotes and the value that it stands for.  A quote, a backslash and
a line feed are written as escapes, and never as themselves. -/
inductive Denotes : List Char -> List Char -> Prop
  | none : Denotes [] []
  | plain {character : Char} {written value : List Char}
      (ordinary : character ∉ ['"', '\\', '\n']) (rest : Denotes written value) :
      Denotes (character :: written) (character :: value)
  | escape {escaped character : Char} {written value : List Char}
      (pair : (escaped, character) ∈ [('"', '"'), ('\\', '\\'), ('n', '\n')])
      (rest : Denotes written value) :
      Denotes ('\\' :: escaped :: written) (character :: value)

theorem unescape?_eq_some_iff {escaped character : Char} :
    unescape? escaped = some character ↔
      (escaped, character) ∈ [('"', '"'), ('\\', '\\'), ('n', '\n')] := by
  constructor
  · intro found
    unfold unescape? at found
    split at found <;> cases found <;> decide
  · intro pair
    simp only [List.mem_cons, Prod.mk.injEq, List.not_mem_nil, or_false] at pair
    rcases pair with ⟨rfl, rfl⟩ | ⟨rfl, rfl⟩ | ⟨rfl, rfl⟩ <;> rfl

theorem escaped_ne_lineFeed {escaped character : Char}
    (pair : (escaped, character) ∈ [('"', '"'), ('\\', '\\'), ('n', '\n')]) :
    escaped ≠ '\n' := by
  rintro rfl
  simp at pair

theorem Denotes.unbroken {content value : List Char} (denotes : Denotes content value) :
    '\n' ∉ content := by
  induction denotes with
  | none => exact List.not_mem_nil
  | @plain character written value ordinary denotes inductionHypothesis =>
      simp only [List.mem_cons, List.not_mem_nil, or_false, not_or] at ordinary
      simp [inductionHypothesis, Ne.symm ordinary.2.2]
  | @escape escaped character written value pair denotes inductionHypothesis =>
      simp [inductionHypothesis, (escaped_ne_lineFeed pair).symm]

/-! ## Where content ends -/

/-- What can stand behind content that does not go on, and what is found there. -/
inductive Ending : List Char -> Body -> Prop
  | nothing : Ending [] (.unterminated [])
  | quote (rest : List Char) : Ending ('"' :: rest) (.closed [] ['"'])
  | lineFeed (rest : List Char) : Ending ('\n' :: rest) (.unterminated [])
  | backslash : Ending ['\\'] (.unterminated ['\\'])
  | backslashLineFeed (rest : List Char) :
      Ending ('\\' :: '\n' :: rest) (.unterminated ['\\'])
  | badEscape {escaped : Char} (notLineFeed : escaped ≠ '\n')
      (unknown : unescape? escaped = none) (rest : List Char) :
      Ending ('\\' :: escaped :: rest) (.badEscape [] escaped)

/-- A body with more content before it. -/
def Body.behind (content value : List Char) : Body -> Body
  | .closed rest restWritten => .closed (value ++ rest) (content ++ restWritten)
  | .unterminated restWritten => .unterminated (content ++ restWritten)
  | .badEscape before escaped => .badEscape (content ++ before) escaped

/-- Content is passed, and what stands behind it decides. -/
theorem body_append_of_denotes {content value : List Char} (denotes : Denotes content value)
    (text : List Char) : body (content ++ text) = (body text).behind content value := by
  induction denotes with
  | none => cases found : body text <;> simp [Body.behind, found]
  | @plain character written value ordinary denotes inductionHypothesis =>
      simp only [List.mem_cons, List.not_mem_nil, or_false, not_or] at ordinary
      rw [List.cons_append, body.eq_def]
      simp only [ordinary, if_false, inductionHypothesis]
      cases body text <;> rfl
  | @escape escaped character written value pair denotes inductionHypothesis =>
      have notLineFeed := escaped_ne_lineFeed pair
      have found := unescape?_eq_some_iff.mpr pair
      rw [List.cons_append, List.cons_append, body.eq_def]
      simp only [notLineFeed, found, inductionHypothesis]
      cases body text <;> rfl

theorem body_of_ending {rest : List Char} {found : Body} (ending : Ending rest found) :
    body rest = found := by
  rw [body.eq_def]
  cases ending with
  | nothing | quote | lineFeed | backslash | backslashLineFeed => rfl
  | badEscape notLineFeed unknown => simp [notLineFeed, unknown]

theorem body_append_of_ending {content value rest : List Char} {found : Body}
    (denotes : Denotes content value) (ending : Ending rest found) :
    body (content ++ rest) = found.behind content value := by
  rw [body_append_of_denotes denotes, body_of_ending ending]

/-- Every text goes on as content as far as it can. -/
theorem exists_ending (text : List Char) :
    Exists fun content => Exists fun value => Exists fun rest => Exists fun found =>
      text = content ++ rest ∧ Denotes content value ∧ Ending rest found := by
  fun_induction body text with
  | case1 => exact ⟨[], [], _, _, rfl, .none, .nothing⟩
  | case2 rest => exact ⟨[], [], _, _, rfl, .none, .quote rest⟩
  | case3 rest => exact ⟨[], [], _, _, rfl, .none, .lineFeed rest⟩
  | case4 => exact ⟨[], [], _, _, rfl, .none, .backslash⟩
  | case5 rest => exact ⟨[], [], _, _, rfl, .none, .backslashLineFeed rest⟩
  | case6 escaped rest notLineFeed character found _ _ inductionHypothesis =>
      rcases inductionHypothesis with ⟨content, value, behind, _, rfl, denotes, ending⟩
      exact ⟨_, _, behind, _, rfl, .escape (unescape?_eq_some_iff.mp found) denotes, ending⟩
  | case7 escaped rest notLineFeed unknown =>
      exact ⟨[], [], _, _, rfl, .none, .badEscape notLineFeed unknown rest⟩
  | case8 character rest notQuote notLineFeed notBackslash inductionHypothesis =>
      rcases inductionHypothesis with ⟨content, value, behind, _, rfl, denotes, ending⟩
      exact ⟨_, _, behind, _, rfl, .plain (by simp [notQuote, notLineFeed, notBackslash]) denotes,
        ending⟩

/-! ## Reading -/

/-- Content is read up to the quote behind it, whatever follows. -/
theorem body_of_denotes {content value : List Char} (denotes : Denotes content value)
    (rest : List Char) :
    body (content ++ '"' :: rest) = .closed value (content ++ ['"']) := by
  rw [body_append_of_ending denotes (.quote rest), Body.behind, List.append_nil]

/-- What is read as a literal is its content and the closing quote, at the head of the text. -/
theorem content_of_body {text value written : List Char}
    (closed : body text = .closed value written) :
    Exists fun content => Exists fun rest => text = content ++ '"' :: rest ∧
      written = content ++ ['"'] ∧ Denotes content value := by
  rcases exists_ending text with ⟨content, contentValue, rest, found, rfl, denotes, ending⟩
  rw [body_append_of_ending denotes ending] at closed
  cases ending with
  | nothing | lineFeed | backslash | backslashLineFeed | badEscape => cases closed
  | quote rest =>
      cases closed
      exact ⟨content, rest, rfl, rfl, by rwa [List.append_nil]⟩

theorem written_isPrefix {text value written : List Char}
    (closed : body text = .closed value written) : written <+: text := by
  rcases content_of_body closed with ⟨content, rest, rfl, rfl, -⟩
  exact ⟨rest, by rw [List.append_assoc, List.singleton_append]⟩

theorem denotes_of_body {text value written : List Char}
    (closed : body text = .closed value written) :
    Exists fun content => written = content ++ ['"'] ∧ Denotes content value := by
  rcases content_of_body closed with ⟨content, rest, -, same, denotes⟩
  exact ⟨content, same, denotes⟩

/-- What stands before an escape that is none belongs to the text, on the same line. -/
theorem before_of_badEscape {text before : List Char} {escaped : Char}
    (bad : body text = .badEscape before escaped) : before <+: text ∧ '\n' ∉ before := by
  rcases exists_ending text with ⟨content, value, rest, found, rfl, denotes, ending⟩
  rw [body_append_of_ending denotes ending] at bad
  cases ending with
  | nothing | quote | lineFeed | backslash | backslashLineFeed => cases bad
  | badEscape =>
      cases bad
      rw [List.append_nil]
      exact ⟨List.prefix_append _ _, denotes.unbroken⟩

/-! ## Writing -/

/-- What is written between the quotes for a value denotes the value. -/
theorem denotes_encoded (value : List Char) : Denotes (value.flatMap encodeChar) value := by
  induction value with
  | nil => exact .none
  | cons character value inductionHypothesis =>
      rw [List.flatMap_cons, encodeChar]
      split
      next escaped written =>
        exact .escape (unescape?_eq_some_iff.mp (unescape?_of_escape? written)) inductionHypothesis
      next ordinary =>
        apply Denotes.plain _ inductionHypothesis
        unfold escape? at ordinary
        split at ordinary <;> simp_all

/-- Content is what is written for the value that it denotes. -/
theorem Denotes.eq_encoded {content value : List Char} (denotes : Denotes content value) :
    content = value.flatMap encodeChar := by
  induction denotes with
  | none => rfl
  | @plain character written value ordinary denotes inductionHypothesis =>
      simp only [List.mem_cons, List.not_mem_nil, or_false, not_or] at ordinary
      have unescaped : encodeChar character = [character] := by
        simp [encodeChar, escape?, ordinary]
      rw [List.flatMap_cons, unescaped, ← inductionHypothesis, List.singleton_append]
  | @escape escaped character written value pair denotes inductionHypothesis =>
      have asPair : encodeChar character = ['\\', escaped] := by
        simp only [List.mem_cons, Prod.mk.injEq, List.not_mem_nil, or_false] at pair
        rcases pair with ⟨rfl, rfl⟩ | ⟨rfl, rfl⟩ | ⟨rfl, rfl⟩ <;> rfl
      rw [List.flatMap_cons, asPair, ← inductionHypothesis]
      rfl

end Quoted
end Text
end ToyFrontend
