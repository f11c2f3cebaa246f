import Sdp.Text.Casing

/-!
# Kinds of attributes

The thirty attributes of the catalog: nine flags, which have no value, six labels, whose value is
kept as it is, and fifteen with a grammar of their own.
-/

namespace Sdp

/-- An attribute that is its keyword alone. -/
inductive Flag where
  | bundleOnly
  | endOfCandidates
  | iceLite
  | inactive
  | recvonly
  | rtcpMux
  | rtcpRsize
  | sendonly
  | sendrecv
deriving DecidableEq, Repr

/-- An attribute whose value is free text. -/
inductive Label where
  | icePwd
  | iceUfrag
  | mid
  | msidSemantic
  | rid
  | ssrcGroup
deriving DecidableEq, Repr

inductive Kind where
  | flag (f : Flag)
  | label (l : Label)
  | candidate
  | extmap
  | fingerprint
  | fmtp
  | group
  | iceOptions
  | msid
  | rtcp
  | rtcpFb
  | rtpmap
  | sctpmap
  | sctpPort
  | setup
  | simulcast
  | ssrc
deriving DecidableEq, Repr

namespace Flag

def all : List Flag :=
  [.bundleOnly, .endOfCandidates, .iceLite, .inactive, .recvonly, .rtcpMux, .rtcpRsize, .sendonly,
    .sendrecv]

def keyword : Flag → String
  | bundleOnly => "bundle-only"
  | endOfCandidates => "end-of-candidates"
  | iceLite => "ice-lite"
  | inactive => "inactive"
  | recvonly => "recvonly"
  | rtcpMux => "rtcp-mux"
  | rtcpRsize => "rtcp-rsize"
  | sendonly => "sendonly"
  | sendrecv => "sendrecv"

end Flag

namespace Label

def all : List Label :=
  [.icePwd, .iceUfrag, .mid, .msidSemantic, .rid, .ssrcGroup]

def keyword : Label → String
  | icePwd => "ice-pwd"
  | iceUfrag => "ice-ufrag"
  | mid => "mid"
  | msidSemantic => "msid-semantic"
  | rid => "rid"
  | ssrcGroup => "ssrc-group"

end Label

namespace Kind

def all : List Kind :=
  Flag.all.map .flag ++ Label.all.map .label ++
    [.candidate, .extmap, .fingerprint, .fmtp, .group, .iceOptions, .msid, .rtcp, .rtcpFb, .rtpmap,
      .sctpmap, .sctpPort, .setup, .simulcast, .ssrc]

/-- The keyword that opens the attribute, in lower case. -/
def keyword : Kind → String
  | flag f => f.keyword
  | label l => l.keyword
  | candidate => "candidate"
  | extmap => "extmap"
  | fingerprint => "fingerprint"
  | fmtp => "fmtp"
  | group => "group"
  | iceOptions => "ice-options"
  | msid => "msid"
  | rtcp => "rtcp"
  | rtcpFb => "rtcp-fb"
  | rtpmap => "rtpmap"
  | sctpmap => "sctpmap"
  | sctpPort => "sctp-port"
  | setup => "setup"
  | simulcast => "simulcast"
  | ssrc => "ssrc"

/-- The name shown to a reader: the keyword with each part capitalised. -/
def title (k : Kind) : String :=
  .ofList (Text.titled k.keyword.toList)

def isFlag : Kind → Bool
  | flag _ => true
  | _ => false

/-- The kind whose keyword is `s` up to the case of ASCII letters. -/
def ofKeyword? (s : List Char) : Option Kind :=
  if Text.isAscii s then Text.matchLower all keyword s else none

theorem mem_all (k : Kind) : k ∈ all := by
  cases k with
  | flag f => cases f <;> decide
  | label l => cases l <;> decide
  | _ => decide

end Kind

end Sdp
