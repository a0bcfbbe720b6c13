import NameDirectory.Arguments
import NameDirectory.Network
import NameDirectory.Seeding

/-!
# The two programs

The shell reads commands and runs them on the directory that its arguments name; the
server installs its bindings and users and listens.  Both end with an exit code, what
they printed, and what they reported of errors.  How a usage text is laid out is left
to the outer layer.
-/

namespace NameDirectory.CommandLine

structure Ending where
  code : Nat
  printed : String := ""
  reported : String := ""
  deriving DecidableEq, Repr

/-- The end of a program whose arguments were refused; asking for help is no error. -/
def refused : Arguments.Refusal → Ending
  | .help | .version => { code := 0 }
  | _ => { code := 2 }

def failed (report : String) : Ending := { code := 1, reported := "Error: " ++ report ++ "\n" }

/-! ## The shell -/

/-- The settings that arguments stand for; `readFile` gives the contents of a properties file. -/
def configuration (a : Arguments.Shell) (readFile : String → Except StreamFault Bytes) :
    Except ClientFault Configuration := do
  let c ← match a.properties with
    | some path => do
      let p ← Properties.load path (readFile path)
      Configuration.ofProperties (match a.url with
        | some url => p.insert Configuration.urlKey url
        | none => p)
    | none => Configuration.ofServers (a.url.getD "")
  return { c with
    authenticator := match a.user with
      | some (user, password) => .password user password ""
      | none => c.authenticator
    requestTimeout := (a.timeout.map Span.ofMillis).getD c.requestTimeout
    randomServer := a.random || c.randomServer }

def describeFault : ClientFault → String
  | .config m => "Config(" ++ Text.quoted m ++ ")"
  | fault => Text.quoted fault.message

structure Shown where
  printed : String := ""
  reported : String := ""

def Shown.print (s : Shown) (text : String) : Shown := { s with printed := s.printed ++ text }

def Shown.report (s : Shown) (text : String) : Shown :=
  { s with reported := s.reported ++ text ++ "\n" }

variable {σ : Type}

/-- Prompt, read and run commands, `fuel` of them at most, until the last one. -/
def converse (serve : Request → σ → Except ClientFault Reply × σ) :
    Nat → Bytes → Shown → σ → Shown × σ
  | 0, _, shown, w => (shown, w)
  | fuel + 1, input, shown, w =>
    let shown := shown.print Shell.promptText
    match Shell.readCommand input with
    | (.ok .exit, _) => (shown, w)
    | (.error (.stream fault), _) => (shown.report (Shell.Fault.stream fault).message, w)
    | (.error fault, rest) => converse serve fuel rest (shown.report fault.message) w
    | (.ok c, rest) =>
      match c.run serve w with
      | (.ok (some text), w) => converse serve fuel rest (shown.print (text ++ "\n")) w
      | (.ok none, w) => converse serve fuel rest shown w
      | (.error fault, w) => converse serve fuel rest (shown.report ("error: " ++ fault.message)) w

/-- Run the shell on a network.  A shell that is interrupted at its first prompt has shown
nothing. -/
def shell (args : List String) (readFile : String → Except StreamFault Bytes) (input : Bytes)
    (interrupted : Bool) (w : Network) : Ending × Network :=
  match Arguments.Shell.parse args with
  | .error refusal => (refused refusal, w)
  | .ok a =>
    match configuration a readFile with
    | .error fault => (failed (describeFault fault), w)
    | .ok c =>
      let registry : Registry Network Nat Nat := { world := w }
      match registry.context c with
      | (.error fault, registry) => (failed (describeFault fault), registry.world)
      | (.ok context, registry) =>
        if interrupted then
          ({ code := 130 }, (registry.shutdown Network.carrier).world)
        else
          let serve r w := Registry.serve Network.carrier context.store (context.absolute r) w
          let (shown, registry) := converse serve (input.length + 1) input {} registry
          let registry := registry.closeRoute Network.carrier context.store
          ({ code := 0, printed := shown.printed, reported := shown.reported },
            (registry.shutdown Network.carrier).world)

/-! ## The server -/

/-- The users of arguments `name:password`, or the report of the first that is none. -/
def users (written : List String) : Except String (List (String × String)) :=
  written.mapM fun u =>
    match Text.splitFirst ":" u with
    | some user => .ok user
    | none => .error ("invalid user '" ++ u ++ "', expected name:password")

/-- The listener that a server's arguments describe, or how the program ends without one. -/
def listener (a : Arguments.Server) : Except Ending Listener :=
  match Tree.empty.seed a.bindings with
  | (.error fault, _) => .error (failed fault.describe)
  | (.ok (), tree) =>
    match users a.users with
    | .error report => .error (failed (Text.quoted report))
    | .ok users =>
      let gatekeeper := if users.isEmpty then .everyone else Gatekeeper.ofUsers users
      .ok { gatekeeper, services := [(Greeting.service, .naming)], tree }

def server (args : List String) : Except Ending (SocketAddress × Listener) :=
  match Arguments.Server.parse args with
  | .error refusal => .error (refused refusal)
  | .ok a => (listener a).map fun l => (a.address, l)

end NameDirectory.CommandLine
