import Reshape.Json.Token
import Reshape.Ordered

/-! JSON values read from their tokens by a machine with a stack: each open
list or object waits on the stack with the parts it has so far. -/
namespace Reshape.Json

/-- A list or object that is still open. Items are kept last first; an object
also remembers the name whose value is due. -/
inductive Frame where
  | list (items : List Json)
  | object (fields : List (String × Json)) (name : String)

/-- What the machine waits for. -/
inductive Want where
  /-- A value. -/
  | value
  /-- The first item of a list, or its end. -/
  | itemOrEnd
  /-- The first name in an object, or its end. -/
  | nameOrEnd
  /-- The name behind a comma. -/
  | name
  /-- The colon behind a name. -/
  | colon
  /-- A comma, or the end of the innermost list or object. -/
  | commaOrEnd
  /-- Nothing more: the text is this value. -/
  | nothing (value : Json)

/-- The state of the machine. -/
structure Machine where
  stack : List Frame
  want : Want

/-- Lists and objects nest no deeper than this. -/
def deepest : Nat := 127

namespace Machine

/-- Hands a finished value to the innermost open list or object. -/
def finish (value : Json) : List Frame → Machine
  | [] => ⟨[], .nothing value⟩
  | .list items :: stack => ⟨.list (value :: items) :: stack, .commaOrEnd⟩
  | .object fields name :: stack =>
    ⟨.object (Ordered.put name value fields) "" :: stack, .commaOrEnd⟩

/-- Opens a list or object. -/
def enter (frame : Frame) (want : Want) (stack : List Frame) : Option Machine :=
  if stack.length < deepest then some ⟨frame :: stack, want⟩ else none

/-- Starts a value with this token. -/
def begin (stack : List Frame) : Token → Option Machine
  | .openList => enter (.list []) .itemOrEnd stack
  | .openObject => enter (.object [] "") .nameOrEnd stack
  | .null => some (finish .null stack)
  | .boolean b => some (finish (.boolean b) stack)
  | .integer n => some (finish (.integer n) stack)
  | .decimal x => some (finish (.decimal x) stack)
  | .text s => some (finish (.text s) stack)
  | _ => none

/-- Ends the innermost list or object with this token. -/
def close : List Frame → Token → Option Machine
  | .list items :: stack, .closeList => some (finish (.list items.reverse) stack)
  | .object fields _ :: stack, .closeObject => some (finish (.object fields) stack)
  | _, _ => none

/-- Reads a name in the innermost object. -/
def readName : List Frame → Token → Option Machine
  | .object fields _ :: stack, .text name => some ⟨.object fields name :: stack, .colon⟩
  | _, _ => none

/-- One token. -/
def step (m : Machine) (token : Token) : Option Machine :=
  match m.want with
  | .value => begin m.stack token
  | .itemOrEnd => (close m.stack token).or (begin m.stack token)
  | .nameOrEnd => (close m.stack token).or (readName m.stack token)
  | .name => readName m.stack token
  | .colon => if token = .colon then some ⟨m.stack, .value⟩ else none
  | .commaOrEnd =>
    if token = .comma then
      match m.stack with
      | .object _ _ :: _ => some ⟨m.stack, .name⟩
      | _ => some ⟨m.stack, .value⟩
    else close m.stack token
  | .nothing _ => none

end Machine

/-- The value that a text stands for. -/
def read? (text : String) : Option Json := do
  let tokens ← tokens? text
  let m ← tokens.foldlM Machine.step ⟨[], .value⟩
  match m.want with
  | .nothing value => some value
  | _ => none

end Reshape.Json
