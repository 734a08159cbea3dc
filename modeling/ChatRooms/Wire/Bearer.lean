import ChatRooms.Text.Blank

/-!
Bearer tokens in the authorization header.
-/

namespace ChatRooms

open ChatRooms.Text

/-- The token of a header: what follows the word `Bearer` and a blank, without blanks around it, if
anything is left. -/
def bearerToken (header : String) : Option String :=
  let scheme := "Bearer ".toList
  let cs := header.toList
  if scheme.isPrefixOf cs then
    let token := trimList (cs.drop scheme.length)
    if token.isEmpty then none else some (String.ofList token)
  else none

end ChatRooms
