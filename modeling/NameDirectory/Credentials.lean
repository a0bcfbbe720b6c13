import NameDirectory.Keyed
import NameDirectory.Text.Quoted

/-!
# Credentials

What a client shows when it connects, and how a server decides on it.  Secrets
appear in no text.
-/

namespace NameDirectory

structure Credentials where
  mechanism : String
  principal : String
  secret : String
  realm : String
  deriving DecidableEq, Repr

namespace Credentials

def anonymousMechanism : String := "ANONYMOUS"

def passwordMechanism : String := "PLAIN"

def describe (c : Credentials) : String :=
  Text.record "Credentials"
    [("mechanism", Text.quoted c.mechanism), ("principal", Text.quoted c.principal),
      ("realm", Text.quoted c.realm)] true

end Credentials

/-- Who a client says it is: what it shows, and the texts that it is known by. -/
structure Authenticator where
  credentials : Credentials
  /-- The text by which connections are shared: equal identities may share one. -/
  identity : String
  describe : String
  deriving DecidableEq, Repr

namespace Authenticator

def anonymous : Authenticator where
  credentials := ⟨Credentials.anonymousMechanism, "", "", ""⟩
  identity := "anonymous"
  describe := "Anonymous"

def password (principal secret realm : String) : Authenticator where
  credentials := ⟨Credentials.passwordMechanism, principal, secret, realm⟩
  identity := "password:" ++ principal ++ "@" ++ realm
  describe := Text.record "PasswordAuthenticator"
    [("principal", Text.quoted principal), ("realm", Text.quoted realm)] true

instance : Inhabited Authenticator := ⟨anonymous⟩

end Authenticator

/-- How a server decides who may connect: with the principal that is let in, or the reason for
refusing. -/
structure Gatekeeper where
  judge : Credentials → Except String String

namespace Gatekeeper

/-- Every client is let in. -/
def everyone : Gatekeeper where
  judge c := .ok (if c.principal.isEmpty then "anonymous" else c.principal)

/-- Only known users with their passwords are let in. -/
def users (passwords : Keyed String) : Gatekeeper where
  judge c :=
    if c.mechanism ≠ Credentials.passwordMechanism then
      .error ("mechanism '" ++ c.mechanism ++ "' is not allowed")
    else if passwords.find? c.principal = some c.secret then .ok c.principal
    else .error ("invalid credentials for '" ++ c.principal ++ "'")

/-- Users with passwords; a later password for a user replaces an earlier one. -/
def ofUsers (users : List (String × String)) : Gatekeeper := .users (Keyed.ofPairs users)

end Gatekeeper

end NameDirectory
