import Mathlib.Data.List.Forall2
import Sdp.Attribute.Pair
import Sdp.Numeral.Grammar
import Sdp.Text.Spelling

/-!
# The grammar of candidates

What every token of a candidate has to be and what it means, told without a reader: a rule for each of
the eight tokens in front, one for each pair behind them, and which pair counts.
-/

namespace Sdp.Candidate

open Text (words)

/-! ## Tokens -/

/-- A number below a bound. -/
def IsNumber (bound : Nat) (w : List Char) (n : Nat) : Prop :=
  Numeral.IsUnsigned n w ∧ n < bound

/-- An address of the family that its text suggests. -/
def IsAddress (w : List Char) (a : Address) : Prop :=
  Network.readAnyAddress w = .ok a

/-- The word of `a` in any letter case. -/
def IsWordOf {α : Type} (word : α → String) (w : List Char) (a : α) : Prop :=
  Text.IsLowerSpelling (word a).toList w

/-- One of a few words in any letter case. -/
def IsOneOf (words : List String) (w : List Char) : Prop :=
  ∃ v ∈ words, Text.IsLowerSpelling v.toList w

/-- The tokens in front of the extensions. -/
def front (value : List Char) : List (List Char) :=
  (words value).take 8

/-- The extensions behind them, each a name and a value. -/
def behind (value : List Char) : List Pair :=
  pairs ((words value).drop 8)

/-- The rules for the tokens in front of the extensions. -/
def mandatoryRules : List (List Char → Prop) :=
  [fun _ => True,
    fun w => ∃ n, IsNumber 0x100000000 w n,
    IsOneOf ["udp", "tcp"],
    fun w => ∃ n, IsNumber 0x10000000000000000 w n,
    fun w => ∃ a, IsAddress w a,
    fun w => ∃ n, IsNumber 0x10000 w n,
    IsOneOf ["typ"],
    IsOneOf ["host", "srflx", "prflx", "relay"]]

/-- Every token keeps the rule in its place. -/
def Kept (rules : List (List Char → Prop)) (tokens : List (List Char)) : Prop :=
  List.Forall₂ (fun rule token => rule token) rules tokens

/-- The leftmost token that does not keep its rule. -/
inductive FirstBroken : List (List Char → Prop) → List (List Char) → List Char → Prop where
  | here {rule rules token tokens} (h : ¬ rule token) :
      FirstBroken (rule :: rules) (token :: tokens) token
  | later {rule rules token tokens w} (h : rule token) (rest : FirstBroken rules tokens w) :
      FirstBroken (rule :: rules) (token :: tokens) w

/-- The fields of the tokens in front of the extensions. -/
structure FieldsOf (tokens : List (List Char)) (c : Candidate) : Prop where
  foundation : tokens[0]? = some c.foundation.toList
  component : ∃ w, tokens[1]? = some w ∧ IsNumber 0x100000000 w c.component
  transport : ∃ w, tokens[2]? = some w ∧ IsWordOf Transport.word w c.transport
  priority : ∃ w, tokens[3]? = some w ∧ IsNumber 0x10000000000000000 w c.priority
  address : ∃ w, tokens[4]? = some w ∧ IsAddress w c.address
  port : ∃ w, tokens[5]? = some w ∧ IsNumber 0x10000 w c.port
  type : ∃ w, tokens[7]? = some w ∧ IsWordOf CandidateType.word w c.type

/-! ## Extensions -/

namespace Extension

/-- What the value of an extension stands for. -/
def Value : Extension → Type
  | remoteAddress => Address
  | remotePort => Nat
  | tcpType => TcpType

def Means : (e : Extension) → List Char → e.Value → Prop
  | remoteAddress => IsAddress
  | remotePort => IsNumber 0x10000
  | tcpType => IsWordOf TcpType.word

/-- The token is the name of the extension in any letter case. -/
def IsNamed (e : Extension) (w : List Char) : Prop :=
  Text.IsLowerSpelling e.word.toList w

end Extension

/-- What a candidate has for an extension. -/
def extension (c : Candidate) : (e : Extension) → Option e.Value
  | .remoteAddress => c.remoteAddress
  | .remotePort => c.remotePort
  | .tcpType => c.tcpType

/-- The name is known, and the value stands for something. -/
def PairKept (p : Pair) : Prop :=
  ∃ e : Extension, e.IsNamed p.1 ∧ ∃ a, e.Means p.2 a

/-- What is wrong with a pair: its value if the name is known, and its name if it is not. -/
inductive PairBroken (p : Pair) : List Char → Prop where
  | value (e : Extension) (known : e.IsNamed p.1) (h : ∀ a, ¬ e.Means p.2 a) : PairBroken p p.2
  | name (h : ∀ e : Extension, ¬ e.IsNamed p.1) : PairBroken p p.1

/-- The last pair of that name stands for `a`. -/
def IsLast (e : Extension) (ps : List Pair) (a : e.Value) : Prop :=
  ∃ front p back, ps = front ++ p :: back ∧ e.IsNamed p.1 ∧ e.Means p.2 a ∧
    ∀ q ∈ back, ¬ e.IsNamed q.1

/-- What the last pair of a name stands for, or nothing if no pair has the name. -/
def HoldsLast (e : Extension) (ps : List Pair) : Option e.Value → Prop
  | none => ∀ p ∈ ps, ¬ e.IsNamed p.1
  | some a => IsLast e ps a

/-- The leftmost token in front that does not keep its rule, or else what is wrong with the leftmost pair
that has no known name with a value for it. -/
inductive Offends (front : List (List Char)) (ps : List Pair) : List Char → Prop where
  | token {w} (h : FirstBroken mandatoryRules front w) : Offends front ps w
  | pair {before p after w} (kept : Kept mandatoryRules front) (hps : ps = before ++ p :: after)
      (hbefore : ∀ q ∈ before, PairKept q) (hp : PairBroken p w) : Offends front ps w

end Sdp.Candidate
