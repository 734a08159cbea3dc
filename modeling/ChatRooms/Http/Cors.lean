import ChatRooms.Http.Message

/-!
Access from other origins: everything is allowed to everybody. Requests that only ask what is
allowed are answered before they reach a route.
-/

namespace ChatRooms.Http.Cors

def vary : String × String :=
  ("vary", "origin, access-control-request-method, access-control-request-headers")

def allowOrigin : String × String := ("access-control-allow-origin", "*")

/-- The response to a request that asks what is allowed. -/
def preflight : Response :=
  ⟨200, [vary, ("access-control-allow-methods", "*"), ("access-control-allow-headers", "*"),
    allowOrigin], ""⟩

/-- Tells on a response that everything is allowed. -/
def permit (r : Response) : Response :=
  { r with headers := r.headers ++ [vary, allowOrigin, ("access-control-expose-headers", "*")] }

end ChatRooms.Http.Cors
