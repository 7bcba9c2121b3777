import Canopen.Client.Config

/-!
Configurations written as text: one `key = value` a line, with numbers and truth values in the
notation of TOML. All other values, tables and unknown keys are refused.
-/

set_option autoImplicit false

namespace Canopen.Client.Settings

inductive Value where
  | number (n : Nat)
  | truth (b : Bool)
  deriving DecidableEq, Repr

def isBlank (c : Char) : Bool := c = ' ' || c = '\t'

def isComment (c : Char) : Bool := c = '\t' || (' ' ≤ c && c ≠ '\x7f')

def isBareKey (c : Char) : Bool := c.isAlphanum || c = '_' || c = '-'

def isLineEnd (cs : List Char) : Bool :=
  match cs.dropWhile isBlank with
  | [] => true
  | c :: rest => c = '#' && rest.all isComment

def digit? (base : Nat) (c : Char) : Option Nat :=
  let v :=
    if '0' ≤ c ∧ c ≤ '9' then c.toNat - '0'.toNat
    else if 'a' ≤ c ∧ c ≤ 'f' then c.toNat - 'a'.toNat + 10
    else if 'A' ≤ c ∧ c ≤ 'F' then c.toNat - 'A'.toNat + 10
    else base
  if v < base then some v else none

/-- More digits of a number; between two of them may be an underscore. -/
def moreDigits (base : Nat) (n : Nat) : List Char → Nat × List Char
  | '_' :: c :: rest =>
    match digit? base c with
    | some d => moreDigits base (n * base + d) rest
    | none => (n, '_' :: c :: rest)
  | c :: rest =>
    match digit? base c with
    | some d => moreDigits base (n * base + d) rest
    | none => (n, c :: rest)
  | [] => (n, [])

def digits? (base : Nat) : List Char → Option (Nat × List Char)
  | c :: rest => (digit? base c).map fun d => moreDigits base d rest
  | [] => none

def decimal? : List Char → Option (Nat × List Char)
  | '0' :: rest => some (0, rest)
  | cs => digits? 10 cs

/-- Numbers below zero fit no setting. -/
def number? : List Char → Option (Nat × List Char)
  | '0' :: 'x' :: rest => digits? 16 rest
  | '0' :: 'o' :: rest => digits? 8 rest
  | '0' :: 'b' :: rest => digits? 2 rest
  | '+' :: rest => decimal? rest
  | '-' :: rest => (decimal? rest).filter (·.1 = 0)
  | cs => decimal? cs

def value? : List Char → Option (Value × List Char)
  | 't' :: 'r' :: 'u' :: 'e' :: rest => some (.truth true, rest)
  | 'f' :: 'a' :: 'l' :: 's' :: 'e' :: rest => some (.truth false, rest)
  | cs =>
    match number? cs with
    | some (n, rest) => if n < UInt64.size / 2 then some (.number n, rest) else none
    | none => none

/-- A key between quotes, in which characters may be given by their codes. -/
def quotedKey? : List Char → Option (List Char × List Char)
  | '"' :: rest => some ([], rest)
  | '\\' :: 'u' :: a :: b :: c :: d :: rest => escape [a, b, c, d] (quotedKey? rest)
  | '\\' :: 'U' :: a :: b :: c :: d :: e :: f :: g :: h :: rest =>
    escape [a, b, c, d, e, f, g, h] (quotedKey? rest)
  | '\\' :: _ => none
  | c :: rest => (quotedKey? rest).map fun (key, rest) => (c :: key, rest)
  | [] => none
where
  escape (code : List Char) (tail : Option (List Char × List Char)) :
      Option (List Char × List Char) :=
    match code.foldlM (fun n d => (digit? 16 d).map (n * 16 + ·)) 0, tail with
    | some n, some (key, rest) =>
      if n.isValidChar then some (Char.ofNat n :: key, rest) else none
    | _, _ => none

def literalKey? (cs : List Char) : Option (List Char × List Char) :=
  match cs.dropWhile (· ≠ '\'') with
  | _ :: rest => some (cs.takeWhile (· ≠ '\''), rest)
  | [] => none

def key? : List Char → Option (String × List Char)
  | '"' :: rest => (quotedKey? rest).map fun (key, rest) => (String.ofList key, rest)
  | '\'' :: rest => (literalKey? rest).map fun (key, rest) => (String.ofList key, rest)
  | cs => some (String.ofList (cs.takeWhile isBareKey), cs.dropWhile isBareKey)

def setting? (cs : List Char) : Option (String × Value) := do
  let (key, rest) ← key? cs
  match rest.dropWhile isBlank with
  | '=' :: rest =>
    let (value, rest) ← value? (rest.dropWhile isBlank)
    if isLineEnd rest then some (key, value) else none
  | _ => none

/-- A number has to fit its setting. -/
def assign? (c : Config) : String → Value → Option Config
  | "timeout_ms", .number n => some { c with timeoutMs := UInt64.ofNat n }
  | "retries", .number n =>
    if n < UInt32.size then some { c with retries := UInt32.ofNat n } else none
  | "poll_interval_us", .number n => some { c with pollIntervalUs := UInt64.ofNat n }
  | "block_size", .number n =>
    if n < UInt8.size then some { c with blockSize := UInt8.ofNat n } else none
  | "use_crc", .truth b => some { c with useCrc := b }
  | "prefer_block", .truth b => some { c with preferBlock := b }
  | "block_threshold", .number n => some { c with blockThreshold := UInt64.ofNat n }
  | _, _ => none

def lines : List Char → List (List Char)
  | [] => [[]]
  | '\n' :: rest => [] :: lines rest
  | '\r' :: '\n' :: rest => [] :: lines rest
  | c :: rest =>
    match lines rest with
    | line :: more => (c :: line) :: more
    | [] => [[c]]

/-- Each key may be set once. -/
def read? (seen : List String) (c : Config) : List (List Char) → Option Config
  | [] => some c
  | line :: more =>
    if isLineEnd line then read? seen c more
    else do
      let (key, value) ← setting? (line.dropWhile isBlank)
      if seen.contains key then none
      else read? (key :: seen) (← assign? c key value) more

/-- A mark of the byte order in front is passed over. -/
def ofText? (text : String) : Option Config :=
  let cs := match text.toList with
    | '\uFEFF' :: rest => rest
    | cs => cs
  read? [] {} (lines cs)

end Settings

inductive Config.LoadError where
  | unreadable (missing : Bool)
  | text
  | invalid (fault : Config.Fault)
  deriving DecidableEq, Repr

/-- Settings that the text does not name keep their defaults. -/
def Config.ofText (text : String) : Except Config.LoadError Config :=
  match Settings.ofText? text with
  | none => .error .text
  | some c =>
    match c.fault? with
    | some f => .error (.invalid f)
    | none => .ok c

def Config.ofFile : Option ByteArray → Except Config.LoadError Config
  | none => .error (.unreadable true)
  | some bytes =>
    match String.fromUTF8? bytes with
    | none => .error (.unreadable false)
    | some text => Config.ofText text

end Canopen.Client
