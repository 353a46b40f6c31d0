import ToyFrontend.Scan

namespace ToyFrontend
namespace Scan

/-!
Scanning step by step.  A session keeps a cursor in a text and the tokens that
were handed to it; passing bytes moves the cursor, handing over a token does not.
-/

/-- The state between two steps. -/
structure Session where
  cursor : Source.Cursor
  tokens : List Token
deriving DecidableEq, Repr

namespace Session

/-- A session before the first character of a document. -/
def ofSource (source : String) : Session where
  cursor := .ofText source.toList
  tokens := []

/-- What a session can be asked to do. -/
inductive Action where
  | look
  /-- Pass so many bytes. -/
  | pass (bytes : Nat)
  /-- Hand over a token. -/
  | push (token : Token)
deriving DecidableEq, Repr

/-- Take one step, if it is possible.  Bytes can be passed only up to the end of the
text and only up to the end of a character. -/
def step? (session : Session) : Action -> Option Session
  | .look => some session
  | .pass bytes =>
      (session.cursor.passBytes? bytes).map fun cursor => { session with cursor }
  | .push token => some { session with tokens := session.tokens ++ [token] }

/-- The session after a step; a step that is not possible changes nothing. -/
def step (session : Session) (action : Action) : Session :=
  (session.step? action).getD session

end Session

end Scan
end ToyFrontend
