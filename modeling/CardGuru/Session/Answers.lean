import CardGuru.Model.Card

/-! The answers of the providers in full, and what the login services make of them. -/

namespace CardGuru

/-- The two ways of signing in. -/
inductive Provider where
  /-- `GoogleLoginService`. -/
  | google
  /-- `FbLoginService`. -/
  | facebook
deriving DecidableEq

/-- How a provider answers a sign-in. -/
inductive SignInResult where
  /-- The sign-in fails or is cancelled. -/
  | error
  /-- There is neither an error nor an authentication or permission. -/
  | notGranted
  /-- The sign-in is granted, and the data of the user is requested. -/
  | granted
deriving DecidableEq

/-- How the request for the data of the user is answered. -/
inductive DataResult where
  /-- The request fails. -/
  | error
  /-- A name, an e-mail address or a picture that the service insists on is missing. -/
  | incomplete
  /-- The data of the user is complete. -/
  | user (user : User)
deriving DecidableEq

/-- A value of the profile that Facebook returns. -/
inductive ProfileValue where
  /-- A text. -/
  | string (value : String)
  /-- A dictionary, whose keys are texts. -/
  | dictionary (entries : List (String × ProfileValue))
  /-- A number, a truth value, an array or a null. -/
  | other

namespace ProfileValue

/-- A field of a dictionary; nothing else has fields. -/
def field (key : String) : ProfileValue → Option ProfileValue
  | dictionary entries => entries.lookup key
  | _ => none

/-- The text, if the value is one. -/
def text : ProfileValue → Option String
  | string value => some value
  | _ => none

/-- The name in a profile. -/
def name (user : ProfileValue) : Option String :=
  (user.field "name").bind text

/-- The e-mail address in a profile. -/
def email (user : ProfileValue) : Option String :=
  (user.field "email").bind text

/-- The address of the picture, two dictionaries deep. -/
def absoluteURL (user : ProfileValue) : Option String :=
  (((user.field "picture").bind (field "data")).bind (field "url")).bind text

end ProfileValue

/-- How Facebook answers the request for the profile. -/
inductive GraphAnswer where
  /-- The request fails. -/
  | error
  /-- The request returns something, or nothing. -/
  | result (user : Option ProfileValue)

/-- How Firebase answers the credentials of a Google account. -/
inductive FirebaseAnswer where
  /-- The sign-in at Firebase fails. -/
  | error
  /-- A user is signed in; the account may lack any of the three. -/
  | user (displayName email photoURL : Option String)

/-- The answer to the request for the data of the user. -/
inductive DataAnswer where
  | google (answer : FirebaseAnswer)
  | facebook (answer : GraphAnswer)

namespace DataAnswer

/-- Whose answer it is. -/
def provider : DataAnswer → Provider
  | google _ => .google
  | facebook _ => .facebook

/-- The name that an answer carries. -/
def name : DataAnswer → Option String
  | google (.user displayName _ _) => displayName
  | facebook (.result (some user)) => user.name
  | _ => none

/-- The e-mail address that an answer carries. -/
def email : DataAnswer → Option String
  | google (.user _ email _) => email
  | facebook (.result (some user)) => user.email
  | _ => none

/-- What `retrieveData` makes of the answer of Firebase. -/
def retrieveData : FirebaseAnswer → DataResult
  | .error => .error
  | .user displayName email photoURL =>
    match displayName, email with
    -- Without a photo the address is empty.
    | some name, some email =>
      .user { name := name, email := email, absoluteURL := some (photoURL.getD "") }
    | _, _ => .incomplete

/-- What `fbSignInCall` makes of the answer of Facebook. -/
def fbSignInCall : GraphAnswer → DataResult
  | .error => .error
  -- A result that is no dictionary has none of the three fields.
  | .result user =>
    match user.bind ProfileValue.name, user.bind ProfileValue.email,
      user.bind ProfileValue.absoluteURL with
    | some name, some email, some absoluteURL =>
      .user { name := name, email := email, absoluteURL := some absoluteURL }
    | _, _, _ => .incomplete

/-- What a service makes of an answer. -/
def result : DataAnswer → DataResult
  | google answer => retrieveData answer
  | facebook answer => fbSignInCall answer

/-- What the completion of the sign-in is called with, if the answer calls it. -/
def reported (answer : DataAnswer) : Option (Option User) :=
  match answer.provider, answer.result with
  | _, .user user => some (some user)
  -- Incomplete data is ignored by both services.
  | _, .incomplete => none
  -- A failed request is reported for Facebook only.
  | .facebook, .error => some none
  | .google, .error => none

end DataAnswer

end CardGuru
