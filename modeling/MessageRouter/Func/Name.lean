import MessageRouter.Direction
/-!
# `Func.Name` — the names in generated code

Names of variables, routers, receivers and readers. A dollar sign keeps them apart from the names of the
target's own library.
-/
namespace MessageRouter
namespace Func
namespace Name

/-! ## Variables -/

/-- A binding or a local. -/
def var (name : String) : String := "$" ++ name

/-- An unpacked field of a bound struct. -/
def field (binding name : String) : String := "$" ++ binding ++ "'" ++ name

/-! ## Functions -/

/-- The router of a contract for one direction. -/
def router (contract : String) (d : Direction) : String :=
  "$" ++ contract ++ "$_contract_router_" ++ d.name

/-- A function of a contract for messages of one direction. -/
def receive (contract : String) (d : Direction) (what : String) : String :=
  "$" ++ contract ++ "$_" ++ d.name ++ "_" ++ what

def receiveMessage (contract : String) (d : Direction) (message : String) : String :=
  receive contract d ("binary_" ++ message)

def receiveEmpty (contract : String) (d : Direction) : String := receive contract d "empty"

/-- The receiver of one comment, named by the hash of the comment's cell. -/
def receiveComment (contract : String) (d : Direction) (hash : String) : String :=
  receive contract d ("text_" ++ hash)

def receiveAnyComment (contract : String) (d : Direction) : String := receive contract d "text_any"

def receiveAny (contract : String) (d : Direction) : String := receive contract d "any"

def receiveBounced (contract message : String) : String :=
  "$" ++ contract ++ "$_receive_binary_bounce_" ++ message

def receiveAnyBounced (contract : String) : String := "$" ++ contract ++ "$_receive_bounce"

/-- The reader of a whole message. -/
def reader (message : String) : String := "$" ++ message ++ "$_load"

/-- The reader of what a bounce keeps of a message. -/
def bouncedReader (message : String) : String := "$" ++ message ++ "$_load_bounced"

end Name
end Func
end MessageRouter
