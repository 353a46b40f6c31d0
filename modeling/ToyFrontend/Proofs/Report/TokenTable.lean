import ToyFrontend.Proofs.Outline.Line
import ToyFrontend.Proofs.Scan.LineEnd
import ToyFrontend.Report.TokenTable

namespace ToyFrontend

/-!
# The rows of the token table

A table is meant to have one row for each token.  Its lines are counted here by
their line feeds: two lines above the rows, one line for each row, and one more for
each line feed in a cell.  Kinds and places have none, and no lexeme is broken by
one.  But the cell of a literal shows its value without escapes, and a value may
hold line feeds.

So the rows are the lines exactly if no value of a literal is broken.
-/

namespace Report

/-- The line begins with the kind of the token and ends with the place where it begins, apart
from what stands between. -/
def IsRowOf (token : Token) (line : String) : Prop :=
  Exists fun middle => Exists fun gap =>
    line.toList = token.kind.name.toList ++ (middle ++
      ((toString token.span.start.line).toList ++ (gap ++
        (toString token.span.start.column).toList))) ∧
    middle.head? = some ' ' ∧ middle.getLast? = some ' ' ∧ gap ≠ [] ∧
    forall character, character ∈ gap -> character = ' '

/-- The table consists of lines that are each ended by a line feed: two, and then one for each
token. -/
def OneRowEach (tokens : List Token) (table : String) : Prop :=
  Exists fun lines : List String =>
    table = String.join (lines.map (· ++ "\n")) ∧ (forall line, line ∈ lines -> OneLine line) ∧
    lines.length = 2 + tokens.length ∧
    forall index token, tokens[index]? = some token ->
      Exists fun line => lines[2 + index]? = some line ∧ IsRowOf token line

/-! ## Lines -/

/-- The cells of a row, without the line feed behind them. -/
def cells (kind value line column : String) : String :=
  Text.padRight 16 kind ++ " " ++ Text.padRight 24 value ++ " " ++
    Text.padLeft ' ' 5 line ++ " " ++ Text.padLeft ' ' 7 column

def tokenCells (token : Token) : String :=
  cells token.kind.name token.shown (toString token.span.start.line)
    (toString token.span.start.column)

/-- The rows and the two lines above them. -/
def tableLines (tokens : List Token) : List String :=
  cells "Type" "Value" "Line" "Column" :: String.ofList (List.replicate 55 '-') ::
    tokens.map tokenCells

theorem tokenTable_eq (tokens : List Token) :
    tokenTable tokens = String.join ((tableLines tokens).map (· ++ "\n")) := by
  have rows : tokens.map tokenRow = (tokens.map tokenCells).map (· ++ "\n") := by
    rw [List.map_map]
    rfl
  rw [tokenTable, tableLines, List.map_cons, List.map_cons, String.join_cons, String.join_cons,
    rows, String.append_assoc]
  rfl

/-- The cell before the last two is wide, and spaces stand at both ends of what lies between the
kind and the place. -/
theorem isRowOf_tokenCells (token : Token) : IsRowOf token (tokenCells token) := by
  have endsWithSpace (width : Nat) : (' ' :: List.replicate width ' ').getLast? = some ' ' := by
    rw [← List.replicate_succ, List.getLast?_replicate, if_neg (Nat.succ_ne_zero width)]
  refine ⟨List.replicate (16 - token.kind.name.length) ' ' ++ (' ' ::
      (Text.padRight 24 token.shown).toList ++ (' ' ::
        List.replicate (5 - (toString token.span.start.line).length) ' ')),
    ' ' :: List.replicate (7 - (toString token.span.start.column).length) ' ', ?_, ?_, ?_, ?_, ?_⟩
  · simp [tokenCells, cells, Text.padRight, Text.padLeft]
  · cases 16 - token.kind.name.length <;> rfl
  · rw [List.getLast?_append, List.getLast?_append, endsWithSpace, Option.some_or, Option.some_or]
  · exact List.cons_ne_nil _ _
  · intro character member
    rcases List.mem_cons.mp member with rfl | later
    · rfl
    · exact List.eq_of_mem_replicate later

/-! ## Line feeds -/

/-- How many line feeds are in a text. -/
def lineFeeds (text : String) : Nat :=
  text.toList.count '\n'

theorem lineFeeds_append (front back : String) :
    lineFeeds (front ++ back) = lineFeeds front + lineFeeds back := by
  rw [lineFeeds, String.toList_append, List.count_append]
  rfl

theorem lineFeeds_eq_zero_iff {text : String} : lineFeeds text = 0 ↔ OneLine text :=
  List.count_eq_zero

theorem sum_lineFeeds_eq_zero_iff {Item : Type} {items : List Item} {text : Item -> String} :
    (items.map fun item => lineFeeds (text item)).sum = 0 ↔
      forall item, item ∈ items -> OneLine (text item) := by
  rw [List.sum_eq_zero_iff_forall_eq_nat, List.forall_mem_map]
  simp only [lineFeeds_eq_zero_iff]

theorem lineFeeds_spaces (width : Nat) :
    lineFeeds (String.ofList (List.replicate width ' ')) = 0 := by
  rw [lineFeeds_eq_zero_iff, OneLine, String.toList_ofList]
  intro member
  cases List.eq_of_mem_replicate member

theorem lineFeeds_join (lines : List String) :
    lineFeeds (String.join (lines.map (· ++ "\n"))) =
      lines.length + (lines.map lineFeeds).sum := by
  induction lines with
  | nil => rfl
  | cons line lines inductionHypothesis =>
      rw [List.map_cons, String.join_cons, lineFeeds_append, lineFeeds_append,
        inductionHypothesis, List.map_cons, List.sum_cons, List.length_cons,
        show lineFeeds "\n" = 1 from by decide]
      omega

theorem lineFeeds_cells {kind line column : String} (ofKind : OneLine kind)
    (ofLine : OneLine line) (ofColumn : OneLine column) (value : String) :
    lineFeeds (cells kind value line column) = lineFeeds value := by
  have space : lineFeeds " " = 0 := by decide
  rw [← lineFeeds_eq_zero_iff] at ofKind ofLine ofColumn
  simp only [cells, Text.padRight, Text.padLeft, lineFeeds_append, lineFeeds_spaces, space, ofKind,
    ofLine, ofColumn, Nat.add_zero, Nat.zero_add]

theorem oneLine_name (kind : Token.Kind) : OneLine kind.name := by
  cases kind <;> decide

theorem lineFeeds_tokenCells (token : Token) :
    lineFeeds (tokenCells token) = lineFeeds token.shown :=
  lineFeeds_cells (oneLine_name token.kind) (OneLine.of_number _) (OneLine.of_number _) _

theorem lineFeeds_tokenTable (tokens : List Token) :
    lineFeeds (tokenTable tokens) =
      2 + tokens.length + (tokens.map fun token => lineFeeds token.shown).sum := by
  have shown : (tokens.map tokenCells).map lineFeeds =
      tokens.map fun token => lineFeeds token.shown := by
    rw [List.map_map]
    exact List.map_congr_left fun token _ => lineFeeds_tokenCells token
  have heading : lineFeeds (cells "Type" "Value" "Line" "Column") = 0 := by decide
  have rule : lineFeeds (String.ofList (List.replicate 55 '-')) = 0 := by decide
  rw [tokenTable_eq, lineFeeds_join, tableLines, List.map_cons, List.map_cons, shown, heading, rule]
  simp only [List.length_cons, List.length_map, List.sum_cons]
  omega

/-- A table has one row for each token exactly if every cell is unbroken. -/
theorem oneRowEach_iff_of_shown (tokens : List Token) :
    OneRowEach tokens (tokenTable tokens) ↔
      forall token, token ∈ tokens -> OneLine token.shown := by
  constructor
  · rintro ⟨lines, whole, each, number, -⟩
    -- No other line feeds are left for the cells than those that end the lines.
    have counted := lineFeeds_tokenTable tokens
    rw [whole, lineFeeds_join, number, sum_lineFeeds_eq_zero_iff.mpr each] at counted
    exact sum_lineFeeds_eq_zero_iff.mp (by omega)
  · intro unbroken
    refine ⟨tableLines tokens, tokenTable_eq tokens, ?_, ?_, ?_⟩
    · rw [tableLines, List.forall_mem_cons, List.forall_mem_cons, List.forall_mem_map]
      refine ⟨by decide, by decide, ?_⟩
      intro token member
      rw [← lineFeeds_eq_zero_iff, lineFeeds_tokenCells, lineFeeds_eq_zero_iff]
      exact unbroken token member
    · rw [tableLines, List.length_cons, List.length_cons, List.length_map]
      omega
    · intro index token found
      refine ⟨tokenCells token, ?_, isRowOf_tokenCells token⟩
      rw [tableLines, Nat.add_comm, List.getElem?_cons_succ, List.getElem?_cons_succ,
        List.getElem?_map, found, Option.map_some]

/-! ## Cells of a document -/

/-- The line feeds in the value of a literal. -/
def valueLineFeeds (token : Token) : Nat :=
  match token.value with
  | some (.string value) => lineFeeds value
  | _ => 0

theorem lineFeeds_shown_of_recognized {ahead : List Char} {token : Token}
    (recognized : Scan.Recognized ahead token) (proper : token.kind ≠ .eof) :
    lineFeeds token.shown = valueLineFeeds token := by
  have unbroken := lineFeeds_eq_zero_iff.mpr recognized.longest.lexeme.unbroken
  have classified := recognized.classified
  clear recognized
  rcases token with ⟨kind, text, value, span⟩
  dsimp only at classified unbroken proper
  cases classified with
  | spelled | identifier =>
      rw [Token.shown, if_neg proper]
      exact unbroken
  | truth value =>
      have oneLine : OneLine (Literal.boolText value) := by cases value <;> decide
      exact lineFeeds_eq_zero_iff.mpr oneLine
  | integer => exact lineFeeds_eq_zero_iff.mpr (OneLine.of_number _)
  | string => rfl

/-- In a document only the value of a literal can be broken. -/
theorem lineFeeds_shown {source : String} {tokens : List Token} {token : Token}
    (scanned : tokenize source = .ok tokens) (member : token ∈ tokens) :
    lineFeeds token.shown = valueLineFeeds token := by
  by_cases isMarker : token.kind = .eof
  · rcases (Scan.layout_of_tokenize scanned).marked with ⟨lexemes, rfl, each⟩
    rcases List.mem_append.mp member with early | last
    · exact absurd isMarker (each token early).1
    · have oneLine : OneLine "EOF" := by decide
      rw [List.mem_singleton.mp last]
      exact lineFeeds_eq_zero_iff.mpr oneLine
  · rcases Scan.exists_read_of_tokenize scanned member isMarker with
      ⟨_, _, _, _, -, run, isToken⟩
    exact lineFeeds_shown_of_recognized (Scan.recognized_of_read run isToken) isMarker

theorem valueLineFeeds_eq_zero_iff {token : Token} :
    valueLineFeeds token = 0 ↔
      forall value, token.value = some (.string value) -> '\n' ∉ value.toList := by
  rcases token with ⟨kind, text, value, span⟩
  rcases value with _ | number | content | truth
  · simp [valueLineFeeds]
  · simp [valueLineFeeds]
  · rw [valueLineFeeds, lineFeeds_eq_zero_iff]
    constructor
    · rintro unbroken value ⟨⟩
      exact unbroken
    · exact fun each => each content rfl
  · simp [valueLineFeeds]

end Report

/-- The table of the tokens of a document, with the end marker or without it, has one more line
for each line feed in the value of a literal.  So it has one row for each token exactly if no
value is broken. -/
theorem oneRowEach_iff_unbroken {source : String} {tokens shown : List Token}
    (scanned : tokenize source = .ok tokens) (among : shown = tokens ∨ shown = tokens.dropLast) :
    Report.lineFeeds (Report.tokenTable shown) =
        2 + shown.length + (shown.map Report.valueLineFeeds).sum ∧
      (Report.OneRowEach shown (Report.tokenTable shown) ↔
        forall token, token ∈ shown -> forall value, token.value = some (.string value) ->
          '\n' ∉ value.toList) := by
  have ofDocument : forall token, token ∈ shown ->
      Report.lineFeeds token.shown = Report.valueLineFeeds token := by
    intro token member
    rcases among with rfl | rfl
    · exact Report.lineFeeds_shown scanned member
    · exact Report.lineFeeds_shown scanned (List.dropLast_subset _ member)
  constructor
  · rw [Report.lineFeeds_tokenTable, List.map_congr_left ofDocument]
  · rw [Report.oneRowEach_iff_of_shown]
    apply forall₂_congr
    intro token member
    rw [← Report.lineFeeds_eq_zero_iff, ofDocument token member,
      Report.valueLineFeeds_eq_zero_iff]

/-- A literal whose value is a letter, and the marker behind it. -/
def plainLiteral : List Token :=
  [{ kind := .stringLiteral
     text := "\"a\""
     value := some (.string "a")
     span := { start := ⟨0, 1, 1⟩, finish := ⟨3, 1, 4⟩ } },
    .endMarker ⟨3, 1, 4⟩]

theorem oneRowEach_of_plainLiteral :
    tokenize "\"a\"" = .ok plainLiteral ∧
      Report.OneRowEach plainLiteral.dropLast (Report.tokenTable plainLiteral.dropLast) := by
  have scanned : tokenize "\"a\"" = .ok plainLiteral := tokenize_eq_ok (by decide +kernel)
  refine ⟨scanned, (oneRowEach_iff_unbroken scanned (.inr rfl)).2.mpr ?_⟩
  intro token member value isValue
  cases List.mem_singleton.mp member
  cases isValue
  decide

/-- A literal whose value is a line feed, and the marker behind it. -/
def brokenLiteral : List Token :=
  [{ kind := .stringLiteral
     text := "\"\\n\""
     value := some (.string "\n")
     span := { start := ⟨0, 1, 1⟩, finish := ⟨4, 1, 5⟩ } },
    .endMarker ⟨4, 1, 5⟩]

/-- Its row takes two lines. -/
theorem not_oneRowEach_of_brokenLiteral :
    tokenize "\"\\n\"" = .ok brokenLiteral ∧
      ¬ Report.OneRowEach brokenLiteral (Report.tokenTable brokenLiteral) ∧
      ¬ Report.OneRowEach brokenLiteral.dropLast (Report.tokenTable brokenLiteral.dropLast) := by
  refine ⟨tokenize_eq_ok (by decide +kernel), ?_, ?_⟩
  · rw [Report.oneRowEach_iff_of_shown]
    decide
  · rw [Report.oneRowEach_iff_of_shown]
    decide

end ToyFrontend
