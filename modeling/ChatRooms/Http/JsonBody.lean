import ChatRooms.Http.MediaType
import ChatRooms.Json.Record

/-!
JSON bodies of requests. The body must be announced as JSON and must not be too long. What is wrong
in a member or an element is told with its place.
-/

namespace ChatRooms.Http

open ChatRooms.Text ChatRooms.Json

def maxBody : Nat := 2097152

/-- The request says that its body is JSON. -/
def announcesJson (r : Request) : Bool :=
  match firstValue? r.headers "content-type" with
  | none => false
  | some value =>
    if value.all fun b => (0x20 ≤ b && b < 0x7F) || b == 0x09 then
      ((MediaType.ofString? (String.ofList (value.map fun b => Char.ofNat b.toNat))).map
        MediaType.isJson).getD false
    else false

/-- The place of a fault, in front of its message. -/
def stepText : Option Step → String
  | none => ""
  | some (.member key) => s!"{key}: "
  | some (.element index) => s!"[{index}]: "

/-- The response to a body that cannot be used. -/
def faultResponse (symbols : List Symbol) (f : Fault) : Response :=
  let message := stepText f.step ++ f.message symbols
  if f.cause.isAboutData then
    .text 422 ("Failed to deserialize the JSON body into the target type: " ++ message)
  else .text 400 ("Failed to parse the request body as JSON: " ++ message)

/-- The record in the body of a request, or the response to a body that cannot be used. -/
def readBody (c : Schema) (r : Request) : Except Response (Row c.fields) :=
  if !announcesJson r then
    .error (.text 415 "Expected request with `Content-Type: application/json`")
  else if maxBody < r.body.length then
    .error (.text 413 "Failed to buffer the request body: length limit exceeded")
  else
    let symbols := Utf8.symbols r.body
    match c.decode symbols with
    | .ok row => .ok row
    | .error f => .error (faultResponse symbols f)

end ChatRooms.Http
