import Canopen.Text.Hex

set_option autoImplicit false

namespace Canopen.Sdo

inductive AbortCode where
  | toggleNotAlternated
  | sdoTimeout
  | invalidCommandSpecifier
  | invalidBlockSize
  | invalidSequenceNumber
  | crcError
  | outOfMemory
  | unsupportedAccess
  | writeOnly
  | readOnly
  | noSuchObject
  | unallowedPdo
  | pdoTooLong
  | incompatibleParameter
  | internalIncompatibility
  | hardwareError
  | dataTypeMismatch
  | dataTypeMismatchLengthHigh
  | dataTypeMismatchLengthLow
  | noSuchSubIndex
  | invalidValue
  | valueTooHigh
  | valueTooLow
  | maxLessThanMin
  | resourceNotAvailable
  | generalError
  | cantStore
  | cantStoreLocalControl
  | cantStoreDeviceState
  | noObjectDict
  | noData
  deriving DecidableEq, Repr

namespace AbortCode

def all : List AbortCode :=
  [toggleNotAlternated, sdoTimeout, invalidCommandSpecifier, invalidBlockSize,
    invalidSequenceNumber, crcError, outOfMemory, unsupportedAccess, writeOnly, readOnly,
    noSuchObject, unallowedPdo, pdoTooLong, incompatibleParameter, internalIncompatibility,
    hardwareError, dataTypeMismatch, dataTypeMismatchLengthHigh, dataTypeMismatchLengthLow,
    noSuchSubIndex, invalidValue, valueTooHigh, valueTooLow, maxLessThanMin,
    resourceNotAvailable, generalError, cantStore, cantStoreLocalControl, cantStoreDeviceState,
    noObjectDict, noData]

def code : AbortCode → UInt32
  | toggleNotAlternated => 0x05030000
  | sdoTimeout => 0x05040000
  | invalidCommandSpecifier => 0x05040001
  | invalidBlockSize => 0x05040002
  | invalidSequenceNumber => 0x05040003
  | crcError => 0x05040004
  | outOfMemory => 0x05040005
  | unsupportedAccess => 0x06010000
  | writeOnly => 0x06010001
  | readOnly => 0x06010002
  | noSuchObject => 0x06020000
  | unallowedPdo => 0x06040041
  | pdoTooLong => 0x06040042
  | incompatibleParameter => 0x06040043
  | internalIncompatibility => 0x06040047
  | hardwareError => 0x06060000
  | dataTypeMismatch => 0x06070010
  | dataTypeMismatchLengthHigh => 0x06070012
  | dataTypeMismatchLengthLow => 0x06070013
  | noSuchSubIndex => 0x06090011
  | invalidValue => 0x06090030
  | valueTooHigh => 0x06090031
  | valueTooLow => 0x06090032
  | maxLessThanMin => 0x06090036
  | resourceNotAvailable => 0x060A0023
  | generalError => 0x08000000
  | cantStore => 0x08000020
  | cantStoreLocalControl => 0x08000021
  | cantStoreDeviceState => 0x08000022
  | noObjectDict => 0x08000023
  | noData => 0x08000024

def description : AbortCode → String
  | toggleNotAlternated => "Toggle bit not alternated"
  | sdoTimeout => "SDO protocol timed out"
  | invalidCommandSpecifier => "Client/server command specifier not valid or unknown"
  | invalidBlockSize => "Invalid block size"
  | invalidSequenceNumber => "Invalid sequence number"
  | crcError => "CRC error"
  | outOfMemory => "Out of memory"
  | unsupportedAccess => "Unsupported access to an object"
  | writeOnly => "Attempt to read a write only object"
  | readOnly => "Attempt to write a read only object"
  | noSuchObject => "Object does not exist in the object dictionary"
  | unallowedPdo => "Object cannot be mapped to the PDO"
  | pdoTooLong => "The number and length of the objects to be mapped would exceed PDO length"
  | incompatibleParameter => "General parameter incompatibility"
  | internalIncompatibility => "General internal incompatibility in the device"
  | hardwareError => "Access failed due to a hardware error"
  | dataTypeMismatch => "Data type does not match, length of service parameter does not match"
  | dataTypeMismatchLengthHigh =>
    "Data type does not match, length of service parameter too high"
  | dataTypeMismatchLengthLow => "Data type does not match, length of service parameter too low"
  | noSuchSubIndex => "Sub-index does not exist"
  | invalidValue => "Invalid value for parameter"
  | valueTooHigh => "Value of parameter written too high"
  | valueTooLow => "Value of parameter written too low"
  | maxLessThanMin => "Maximum value is less than minimum value"
  | resourceNotAvailable => "Resource not available: SDO connection"
  | generalError => "General error"
  | cantStore => "Data cannot be transferred or stored to the application"
  | cantStoreLocalControl =>
    "Data cannot be transferred or stored to the application because of local control"
  | cantStoreDeviceState =>
    "Data cannot be transferred or stored to the application because of the present device state"
  | noObjectDict => "Object dictionary dynamic generation fails or no object dictionary is present"
  | noData => "No data available"

def ofCode? (value : UInt32) : Option AbortCode := all.find? (·.code == value)

def text (c : AbortCode) : String := s!"0x{upperHex 8 c.code.toNat} ({c.description})"

instance : ToString AbortCode := ⟨text⟩

theorem mem_all (c : AbortCode) : c ∈ all := by cases c <;> decide

theorem ofCode?_code (c : AbortCode) : ofCode? c.code = some c := by cases c <;> decide

theorem code_of_ofCode? {value : UInt32} {c : AbortCode} (h : ofCode? value = some c) :
    c.code = value := by
  simpa using List.find?_some h

end AbortCode

inductive AbortReason where
  | known (code : AbortCode)
  | unknown (value : UInt32)
  deriving DecidableEq, Repr

namespace AbortReason

def ofCode (value : UInt32) : AbortReason :=
  match AbortCode.ofCode? value with
  | some c => .known c
  | none => .unknown value

def code : AbortReason → UInt32
  | .known c => c.code
  | .unknown v => v

def text : AbortReason → String
  | .known c => c.text
  | .unknown v => s!"0x{upperHex 8 v.toNat} (unknown abort code)"

instance : ToString AbortReason := ⟨text⟩

theorem code_ofCode (value : UInt32) : (ofCode value).code = value := by
  unfold ofCode
  split
  · exact AbortCode.code_of_ofCode? ‹_›
  · rfl

end AbortReason

end Canopen.Sdo
