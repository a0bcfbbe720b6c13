import NameDirectory.Request
import NameDirectory.Text.Numeral
import NameDirectory.Wire.Value

/-!
# Faults

Three layers of failure: what goes wrong on the way to a peer (`TransportFault`),
what a directory refuses (`NamingFault`), and what a caller of the client sees
(`ClientFault`).  Each cause is a constructor with one wording.
-/

namespace NameDirectory

/-! ## On the way to a peer -/

inductive StreamFault where
  | refused
  | reset
  | brokenPipe
  | endOfFile
  | timedOut
  | shortRead
  | unreachable
  | notListening
  | notText
  | missingFile
  | isFolder
  | notFolder
  | nameTooLong
  | nulInName
  | accessDenied
  | other (text : String)
  deriving DecidableEq, Repr

namespace StreamFault

def message : StreamFault → String
  | refused => "connection refused"
  | reset => "connection reset"
  | brokenPipe => "broken pipe"
  | endOfFile => "unexpected end of file"
  | timedOut => "timed out"
  | shortRead => "failed to fill whole buffer"
  | unreachable => "Network is unreachable (os error 101)"
  | notListening => "Connection refused (os error 111)"
  | notText => "stream did not contain valid UTF-8"
  | missingFile => "No such file or directory (os error 2)"
  | isFolder => "Is a directory (os error 21)"
  | notFolder => "Not a directory (os error 20)"
  | nameTooLong => "File name too long (os error 36)"
  | nulInName => "file name contained an unexpected NUL byte"
  | accessDenied => "Permission denied (os error 13)"
  | other text => text

end StreamFault

/-- How a peer broke the rules of the protocol. -/
inductive Violation where
  | overBudget
  | packetTooLarge (size : Nat)
  | truncatedFrame
  | textTooLong
  | notText
  | unknownTag (found : UInt8)
  | unexpectedValue (wanted : String) (found : Wire.Value)
  | unknownOutcome
  | unexpectedParameter (tag : String)
  | unnamedContext
  | tooManyResults
  | unexpectedReply (operation : Operation) (reply : Reply)
  | tooManyVersions
  | truncatedGreeting
  | invalidHeader
  | malformedChoice
  | unexpectedPacket (kind : String)
  | unexpectedOutcome (kind : String)
  | unaskedChannel
  | other (text : String)
  deriving DecidableEq, Repr

namespace Violation

/-- A byte as two hexadecimal digits. -/
def hexByte (b : UInt8) : String :=
  "0x" ++ (if b < 16 then "0" else "") ++ Text.hex b.toNat

def message : Violation → String
  | overBudget => "peer sent more than " ++ toString Wire.budget ++ " bytes"
  | packetTooLarge n => "packet of " ++ toString n ++ " bytes exceeds " ++ toString Wire.budget
  | truncatedFrame => "truncated frame"
  | textTooLong => "string too long for frame"
  | notText => "string is not valid UTF-8"
  | unknownTag b => "unknown parameter type " ++ hexByte b
  | unexpectedValue wanted found => "expected " ++ wanted ++ ", found " ++ found.describe
  | unknownOutcome => "Outcome not understood"
  | unexpectedParameter tag => "unexpected response parameter " ++ tag
  | unnamedContext => "context result for an unnamed request"
  | tooManyResults => "too many results"
  | unexpectedReply op reply =>
    "unexpected result for " ++ op.title ++ ": " ++ reply.describe
  | tooManyVersions => "too many protocol versions"
  | truncatedGreeting => "truncated greeting"
  | invalidHeader => "invalid protocol header"
  | malformedChoice => "malformed version choice"
  | unexpectedPacket kind => "unexpected " ++ kind ++ " packet"
  | unexpectedOutcome kind => "expected authentication outcome, got " ++ kind ++ " packet"
  | unaskedChannel => "peer tried to open a channel"
  | other text => text

end Violation

/-- What a wait that ran out was for. -/
inductive Awaited where
  | message
  | authentication
  | channelOpen
  deriving DecidableEq, Repr

def Awaited.text : Awaited → String
  | message => "a message"
  | authentication => "authentication"
  | channelOpen => "channel open"

inductive TransportFault where
  | undecodable (fault : Wire.DecodeFault)
  | stream (fault : StreamFault)
  | unresolved (target : String)
  | authentication (mechanism reason : String)
  | connectionClosed
  | channelClosed
  | channelRejected (service reason : String)
  | violation (cause : Violation)
  | unsupportedVersion (offered : Bytes)
  | timeout (after : Span) (awaited : Awaited)
  deriving DecidableEq, Repr

namespace TransportFault

def message : TransportFault → String
  | undecodable f => "failed to decode packet: " ++ f.describe
  | stream f => "transport IO error: " ++ f.message
  | unresolved target => "could not resolve '" ++ target ++ "'"
  | authentication mechanism reason =>
    "authentication failed using mechanism '" ++ mechanism ++ "': " ++ reason
  | connectionClosed => "connection closed"
  | channelClosed => "channel closed"
  | channelRejected service reason => "channel '" ++ service ++ "' rejected: " ++ reason
  | violation v => "protocol violation: " ++ v.message
  | unsupportedVersion offered =>
    "no supported protocol version, peer offered [" ++
      ", ".intercalate (offered.map fun b => toString b.toNat) ++ "]"
  | timeout after awaited => "timed out after " ++ after.text ++ " waiting for " ++ awaited.text

/-- A failure to read from a whole message: too much is a violation. -/
def ofDecode : Wire.DecodeFault → TransportFault
  | .overBudget => violation .overBudget
  | f => undecodable f

/-- A failure to read from a stream, where missing bytes are the stream's end. -/
def ofStreamDecode : Wire.DecodeFault → TransportFault
  | .unexpectedEnd _ => stream .shortRead
  | f => ofDecode f

/-- The peer refused who we are. -/
def isAuthentication : TransportFault → Bool
  | authentication .. => true
  | _ => false

/-- No peer was reached at all. -/
def isConnectivity : TransportFault → Bool
  | stream _ | unresolved _ | connectionClosed | timeout .. => true
  | _ => false

end TransportFault

/-! ## At the client -/

inductive ClientFault where
  | argument (operation : Operation) (reason : String)
  | naming (fault : NamingFault)
  | transport (fault : TransportFault)
  | communication (attempts : List String) (cause : Option TransportFault)
  | authentication (attempts : List String) (cause : Option TransportFault)
  | timeout (after : Span)
  | closed
  | config (message : String)
  deriving DecidableEq, Repr

namespace ClientFault

def tried (attempts : List String) : String :=
  "failed to connect to any server. Servers tried: [" ++ ", ".intercalate attempts ++ "]"

def message : ClientFault → String
  | argument op reason => "invalid arguments for '" ++ op.title ++ "': " ++ reason
  | naming f => f.message
  | transport f => "naming operation failed: " ++ f.message
  | communication attempts _ => tried attempts
  | authentication attempts _ => tried attempts
  | timeout after => "no response received within " ++ after.text
  | closed => "NamingStore has been closed"
  | config m => "invalid configuration: " ++ m

/-- Whether another server may do better. -/
def isTransport : ClientFault → Bool
  | transport _ => true
  | _ => false

/-- The failure that led to this one. -/
def source? : ClientFault → Option TransportFault
  | transport f => some f
  | communication _ cause => cause
  | authentication _ cause => cause
  | _ => none

end ClientFault

end NameDirectory
