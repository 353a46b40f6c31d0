namespace ToyFrontend
namespace Text

/-!
Fixed-width columns.  A width counts characters, and a text that is already
wide enough is left alone, so padding never loses anything.
-/

/-- Write `text` at the left of a column of the given width. -/
def padRight (width : Nat) (text : String) : String :=
  text ++ String.ofList (List.replicate (width - text.length) ' ')

/-- Write `text` at the right of a column of the given width, after copies of `fill`. -/
def padLeft (fill : Char) (width : Nat) (text : String) : String :=
  String.ofList (List.replicate (width - text.length) fill) ++ text

end Text
end ToyFrontend
