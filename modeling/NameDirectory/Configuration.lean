import NameDirectory.Credentials
import NameDirectory.Destination

/-!
# Configuration of a client

Settings come from a list of servers or from the lines of a properties text.  A
setting that cannot be read as a time is left at its default.  Connections and
stores are shared between clients whose keys are equal.
-/

namespace NameDirectory

/-! ## Properties -/

abbrev Properties := Keyed String

namespace Properties

/-- The key and value of a line; without an equals sign the value is empty. -/
def entry (line : String) : String × String :=
  match Text.splitFirst "=" line with
  | some (k, v) => (Text.trim k, Text.trim v)
  | none => (line, "")

def isComment (line : String) : Bool :=
  match line.toList with
  | [] | '#' :: _ | '!' :: _ => true
  | _ => false

/-- The entries of a text; the last line for a key counts. -/
def parse (text : String) : Properties :=
  Keyed.ofPairs ((((Text.splitOn '\n' text).map Text.trim).filter (!isComment ·)).map entry)

/-- The entries of a file with the given path and contents. -/
def load (path : String) (contents : Except StreamFault Bytes) : Except ClientFault Properties :=
  let text := contents.bind fun bytes => (Text.ofUtf8 bytes).mapError fun _ => StreamFault.notText
  match text with
  | .ok text => .ok (parse text)
  | .error fault => .error (.config ("failed to read " ++ path ++ ": " ++ fault.message))

/-- The entries under `start`, without it; an entry for `start` alone is left out. -/
def options (start : String) (p : Properties) : Options :=
  Keyed.ofPairs (p.filterMap fun (k, v) =>
    ((Text.dropStart start k).filter (!·.isEmpty)).map fun k => (k, v))

/-- The time in milliseconds under `k`. -/
def span (k : String) (default : Span) (p : Properties) : Span :=
  (((p.find? k).bind Text.word64?).map Span.ofMillis).getD default

end Properties

/-! ## Clients -/

structure Configuration where
  destinations : List Destination
  endpointName : String := "config-based-naming-client-endpoint"
  endpointOptions : Options := []
  providerOptions : Options := []
  connectOptions : Options := []
  connectTimeout : Span := Span.ofMillis 5000
  channelOptions : Options := []
  channelTimeout : Span := Span.ofMillis 5000
  requestTimeout : Span := Span.ofSeconds 10
  randomServer : Bool := false
  authenticator : Authenticator := .anonymous
  deriving DecidableEq, Repr

/-- What is needed to reach one server. -/
structure Descriptor where
  destination : Destination
  connectOptions : Options
  authenticator : Authenticator
  connectTimeout : Span
  channelOptions : Options
  channelTimeout : Span
  deriving DecidableEq, Repr

namespace Configuration

def noDestination : ClientFault := .config "no provider url given"

/-- The defaults for a list of servers. -/
def ofServers (urls : String) : Except ClientFault Configuration :=
  match Destination.parseList urls with
  | .error fault =>
    .error (.config ("invalid provider url '" ++ urls ++ "': " ++ fault.message))
  | .ok [] => .error noDestination
  | .ok destinations => .ok { destinations }

def urlKey : String := "remote.naming.provider.url"

/-- Whether a text is a word, upper and lower case of ASCII letters alike. -/
def isWord (word s : String) : Bool := s.toList.map Char.toLower == word.toList

def ofProperties (p : Properties) : Except ClientFault Configuration :=
  match p.find? urlKey with
  | none => .error (.config (urlKey ++ " is not set"))
  | some urls => do
    let c ← ofServers urls
    let security := "remote.naming.security."
    let authenticator := match p.find? (security ++ "principal") with
      | none => .anonymous
      | some principal =>
        .password principal ((p.find? (security ++ "credentials")).getD "")
          ((p.find? (security ++ "realm")).getD "")
    return { c with
      endpointName := (p.find? "remote.naming.endpoint.name").getD c.endpointName
      endpointOptions := p.options "remote.naming.endpoint.create.options."
      providerOptions := p.options "remote.naming.remote.connectionprovider.create.options."
      connectOptions := p.options "remote.naming.connect.options."
      channelOptions := p.options "remote.naming.channel.options."
      connectTimeout := p.span "remote.naming.connect.timeout" c.connectTimeout
      channelTimeout := p.span "remote.naming.channel.timeout" c.channelTimeout
      requestTimeout := p.span "remote.naming.request.timeout" c.requestTimeout
      randomServer := (p.find? "remote.naming.random.server").any (isWord "true")
      authenticator }

/-- The option by which a connection sends small packets at once. -/
def noDelay : String := "tcp_nodelay"

/-- One descriptor for each server, in order. -/
def descriptors (c : Configuration) : Except ClientFault (List Descriptor) :=
  if c.destinations.isEmpty then .error noDestination
  else
    let connectOptions := Keyed.overlay [(noDelay, "true")] c.connectOptions
    .ok (c.destinations.map fun destination =>
      { destination, connectOptions, authenticator := c.authenticator,
        connectTimeout := c.connectTimeout, channelOptions := c.channelOptions,
        channelTimeout := c.channelTimeout })

def describe (c : Configuration) : String :=
  Text.record "ClientConfig"
    [("destinations", "[" ++ ", ".intercalate (c.destinations.map Destination.describe) ++ "]"),
      ("endpoint_name", Text.quoted c.endpointName),
      ("connect_timeout", c.connectTimeout.text),
      ("channel_timeout", c.channelTimeout.text),
      ("request_timeout", c.requestTimeout.text),
      ("random_server", toString c.randomServer),
      ("authenticator", Text.quoted c.authenticator.identity)] true

end Configuration

/-! ## Keys of what is shared -/

namespace Descriptor

/-- A descriptor with the authenticator known by its identity only. -/
structure Key where
  destination : Destination
  connectOptions : Options
  identity : String
  connectTimeout : Span
  channelOptions : Options
  channelTimeout : Span
  deriving DecidableEq, Repr

def key (d : Descriptor) : Key :=
  ⟨d.destination, d.connectOptions, d.authenticator.identity, d.connectTimeout,
    d.channelOptions, d.channelTimeout⟩

def describe (d : Descriptor) : String :=
  Text.record "ConnectionDescriptor"
    [("destination", d.destination.describe),
      ("authenticator", Text.quoted d.authenticator.identity),
      ("connect_timeout", d.connectTimeout.text),
      ("channel_timeout", d.channelTimeout.text)] true

end Descriptor

structure EndpointKey where
  name : String
  options : Options
  providerOptions : Options
  deriving DecidableEq, Repr

structure ConnectionKey where
  endpoint : EndpointKey
  destination : Destination
  options : Options
  identity : String
  deriving DecidableEq, Repr

structure StoreKey where
  endpoint : EndpointKey
  servers : List Descriptor.Key
  randomServer : Bool
  requestTimeout : Span
  deriving DecidableEq, Repr

namespace Configuration

def endpointKey (c : Configuration) : EndpointKey :=
  ⟨c.endpointName, c.endpointOptions, c.providerOptions⟩

end Configuration

def ConnectionKey.of (endpoint : EndpointKey) (d : Descriptor) : ConnectionKey :=
  ⟨endpoint, d.destination, d.connectOptions, d.authenticator.identity⟩

end NameDirectory
