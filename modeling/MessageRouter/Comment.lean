import MessageRouter.Cell.Builder
import MessageRouter.Diagnostic.Span
import MessageRouter.Json.Reader
import MessageRouter.Schema.Message
/-!
# `Comment` — text comments and their tags

A comment travels in one cell: an opcode of zero and the UTF-8 bytes of the text. It is told from other
comments by the hash of that cell.

* `Comment.maxBytes`: the longest comment that fits.
* `Comment.cell`: the cell of a comment.
* `Comment.tag`: its hash.
-/
namespace MessageRouter
namespace Comment

/-- The most bytes that fit a cell after the opcode. -/
def maxBytes : Nat := (Cell.maxBits - opcodeBits) / 8

/-- The stores of a comment. -/
def stores (text : String) : Build Unit := do
  Builder.storeUint 0 opcodeBits
  Builder.storeBytes (Json.bytesOf text)

/-- Why a text is no comment. -/
inductive Error where
  /-- More bytes than fit; the span is where the comment stands. -/
  | oversized (length : Nat) (loc : Option Span)
  | cell (cause : Cell.Fault)
  deriving DecidableEq, Repr

def Error.message : Error → String
  | .oversized length loc =>
    "receiver message is too long, max length is " ++ toString maxBytes ++ " bytes, but given " ++
      toString length ++ (loc.map fun s => " at " ++ s.display).getD ""
  | .cell cause => "internal error: building comment cell: " ++ cause.display

/-- The cell of a comment. -/
def cell (text : String) : Except Error Cell := (stores text).cell.mapError .cell

/-- The tag of a comment that stands at `loc`. -/
def tag (text : String) (loc : Option Span) : Except Error String :=
  if maxBytes < text.utf8ByteSize then .error (.oversized text.utf8ByteSize loc)
  else (cell text).map Cell.hashText

end Comment
end MessageRouter
