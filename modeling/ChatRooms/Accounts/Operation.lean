import ChatRooms.Accounts.Basic

/-!
Calls on accounts, one at a time, and runs of calls. A call comes with what it reads from the clock
and with the identifier or the token that it draws. The times that are stored are those of a clock;
what is only compared with them, or stands in for one that cannot be read, may be any instant.
-/

namespace ChatRooms.Accounts

open ChatRooms.Time

inductive Operation where
  | signup (now : ClockTime) (id email username password : String)
  | login (now sessionNow : ClockTime) (token email password : String)
  | validate (now : Instant) (token : String)
  | logout (token : String)
  | findUser (now : Instant) (userId : String)
  /-- a new process begins with the same tables -/
  | restart
deriving DecidableEq

inductive Answer where
  | done
  | signedUp (result : Except AccountError User)
  | loggedIn (result : Except AccountError (User × Session))
  | validated (result : Except AccountError UserInfo)
  | loggedOut (result : Except AccountError Unit)
  | found (result : Except AccountError (Option UserInfo))

/-- Carries out a call. -/
def step (a : Accounts) : Operation → Answer × Accounts
  | .signup now id email username password =>
    let (r, a) := a.signup now id email username password
    (.signedUp r, a)
  | .login now sessionNow token email password =>
    let (r, a) := a.login now sessionNow token email password
    (.loggedIn r, a)
  | .validate now token =>
    let (r, a) := a.validateSession now token
    (.validated r, a)
  | .logout token =>
    let (r, a) := a.logout token
    (.loggedOut r, a)
  | .findUser now userId => (.found (a.findUser now userId), a)
  | .restart => (.done, a.restart)

/-- The accounts after calls in order. -/
def run (a : Accounts) (ops : List Operation) : Accounts := ops.foldl (fun a op => (a.step op).2) a

/-- The answers to calls in order. -/
def answers (a : Accounts) : List Operation → List Answer
  | [] => []
  | op :: ops => (a.step op).1 :: answers (a.step op).2 ops

end ChatRooms.Accounts
