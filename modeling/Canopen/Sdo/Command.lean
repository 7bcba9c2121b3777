import Canopen.Bytes
import Canopen.Text.Hex

/-!
The first byte of an SDO frame. Its top three bits are the command specifier, which each side
numbers in its own way; the low bits hold flags and counts.
-/

set_option autoImplicit false

namespace Canopen.Sdo

inductive ParseError where
  | malformedLength (dlc : UInt8)
  | unknownCommandSpecifier (command : UInt8)
  | notSdo (functionCode : UInt8)
  | extendedId (id : UInt32)
  | invalidNodeId (value : UInt8)
  deriving DecidableEq, Repr

namespace ParseError

def message : ParseError → String
  | malformedLength dlc => s!"SDO frames must have a DLC of 8, got {dlc}"
  | unknownCommandSpecifier b => s!"Unknown SDO command specifier 0x{lowerHex 2 b.toNat}"
  | notSdo f => s!"Function code 0x{lowerHex 1 f.toNat} is not an SDO channel"
  | extendedId id => s!"Extended ID 0x{lowerHex 8 id.toNat} does not carry SDO traffic"
  | invalidNodeId v => s!"Node ID {v} is not a valid SDO target"

instance : ToString ParseError := ⟨message⟩

end ParseError

inductive Party where
  | client | server
  deriving DecidableEq, Repr

inductive ClientCommand where
  | downloadSegment | initiateDownload | initiateUpload | uploadSegment
  | abort | blockUpload | blockDownload
  deriving DecidableEq, Repr

inductive ServerCommand where
  | uploadSegment | downloadSegment | upload | download
  | abort | blockDownload | blockUpload
  deriving DecidableEq, Repr

def ClientCommand.specifier : ClientCommand → UInt8
  | .downloadSegment => 0
  | .initiateDownload => 1
  | .initiateUpload => 2
  | .uploadSegment => 3
  | .abort => 4
  | .blockUpload => 5
  | .blockDownload => 6

def ClientCommand.ofSpecifier? : UInt8 → Option ClientCommand
  | 0 => some .downloadSegment
  | 1 => some .initiateDownload
  | 2 => some .initiateUpload
  | 3 => some .uploadSegment
  | 4 => some .abort
  | 5 => some .blockUpload
  | 6 => some .blockDownload
  | _ => none

def ServerCommand.specifier : ServerCommand → UInt8
  | .uploadSegment => 0
  | .downloadSegment => 1
  | .upload => 2
  | .download => 3
  | .abort => 4
  | .blockDownload => 5
  | .blockUpload => 6

def ServerCommand.ofSpecifier? : UInt8 → Option ServerCommand
  | 0 => some .uploadSegment
  | 1 => some .downloadSegment
  | 2 => some .upload
  | 3 => some .download
  | 4 => some .abort
  | 5 => some .blockDownload
  | 6 => some .blockUpload
  | _ => none

theorem ClientCommand.ofSpecifier?_specifier (c : ClientCommand) :
    ofSpecifier? c.specifier = some c := by cases c <;> rfl

theorem ServerCommand.ofSpecifier?_specifier (c : ServerCommand) :
    ofSpecifier? c.specifier = some c := by cases c <;> rfl

namespace Command

def specifier (command : UInt8) : UInt8 := command >>> 5

def flag (command bit : UInt8) : Bool := command >>> bit &&& 1 == 1

/-- The two low bits, which tell the commands of a block transfer apart. -/
def subcommand (command : UInt8) : UInt8 := command &&& 3

def unusedOfFour (command : UInt8) : UInt8 := command >>> 2 &&& 3

def unusedOfSeven (command : UInt8) : UInt8 := command >>> 1 &&& 7

def unusedAtEnd (command : UInt8) : UInt8 := command >>> 2 &&& 7

def bit (b : Bool) (place : UInt8) : UInt8 := if b then 1 <<< place else 0

end Command

/-- The kinds of SDO frames. All but a segment of a block are told apart by their command. -/
inductive TransferType where
  | expedited
  | initiateDownload
  | initiateUpload
  | segmentDownload
  | segmentUpload
  | blockDownload
  | blockUpload
  | blockSegment
  | abort
  deriving DecidableEq, Repr

namespace TransferType

def ofCommand? (sender : Party) (command : UInt8) : Option TransferType :=
  let expedite := Command.flag command 1
  match sender with
  | .client =>
    (ClientCommand.ofSpecifier? (Command.specifier command)).map fun
      | .downloadSegment => segmentDownload
      | .initiateDownload => if expedite then expedited else initiateDownload
      | .initiateUpload => initiateUpload
      | .uploadSegment => segmentUpload
      | .abort => abort
      | .blockUpload => blockUpload
      | .blockDownload => blockDownload
  | .server =>
    (ServerCommand.ofSpecifier? (Command.specifier command)).map fun
      | .uploadSegment => segmentUpload
      | .downloadSegment => segmentDownload
      | .upload => if expedite then expedited else initiateUpload
      | .download => initiateDownload
      | .abort => abort
      | .blockDownload => blockDownload
      | .blockUpload => blockUpload

def headerLength : TransferType → Nat
  | expedited | initiateDownload | initiateUpload | abort => 4
  | segmentDownload | segmentUpload | blockDownload | blockUpload | blockSegment => 1

def dataLength (t : TransferType) (sender : Party) (command : UInt8) : UInt8 :=
  let sized := Command.flag command 0
  match t, sender with
  | expedited, _ => if sized then 4 - Command.unusedOfFour command else 4
  | initiateDownload, .client | initiateUpload, .server => if sized then 4 else 0
  | initiateDownload, .server | initiateUpload, .client => 0
  | segmentDownload, .client | segmentUpload, .server => 7 - Command.unusedOfSeven command
  | segmentDownload, .server | segmentUpload, .client => 0
  | abort, _ => 4
  | blockDownload, _ | blockUpload, _ | blockSegment, _ => 7

/-- The number of bytes that mean something when `length` of them are data. -/
def meaningful (t : TransferType) (length : UInt8) : Nat :=
  match t with
  | abort | blockDownload | blockUpload | blockSegment => 8
  | _ => t.headerLength + length.toNat

end TransferType

end Canopen.Sdo
