import Mathlib.Data.List.Basic

/-!
# The USB/IP wire format

What the emulator's server reads: the header of an operation, the bus ID of an import, and the URB
commands that follow it. Every field is big-endian but those of the setup packet. A message that
cannot be understood is an error with the text it is reported with.
-/

namespace SerialBroker.Emulator

def usbipVersion : ℕ := 0x0111
def opReqDevlist : ℕ := 0x8005
def opReqImport : ℕ := 0x8003
def usbipCmdSubmit : ℕ := 1
def usbipCmdUnlink : ℕ := 2
def operationHeaderBytes : ℕ := 8
def busIdBytes : ℕ := 32
def urbHeaderBytes : ℕ := 48
def maxOutTransferBytes : ℕ := 1024 * 1024
def notIsochronous : ℕ := 0xffffffff

/-- The number in `size` bytes from `offset` on, big-endian. -/
def getUint (size : ℕ) (bytes : List UInt8) (offset : ℕ) : ℕ :=
  ((bytes.drop offset).take size).foldl (fun n byte => n * 256 + byte.toNat) 0

def getUint16LittleEndian (bytes : List UInt8) (offset : ℕ) : ℕ :=
  ((bytes.drop offset).take 2).foldr (fun byte n => n * 256 + byte.toNat) 0

/-- `toString(16)` of a number. -/
def hex (n : ℕ) : String := String.ofList (Nat.toDigits 16 n)

def hex4 (n : ℕ) : String := String.ofList ((Nat.toDigits 16 n).leftpad 4 (Char.ofNat 48))

/-- The setup packet of a control transfer. -/
structure UsbSetup where
  requestType : ℕ
  request : ℕ
  value : ℕ
  index : ℕ
  length : ℕ
  deriving DecidableEq

inductive TransferDirection
  | dirIn
  | dirOut
  deriving DecidableEq

structure SubmitCommand where
  seqnum : ℕ
  direction : TransferDirection
  endpointNumber : ℕ
  transferBufferLength : ℕ
  setup : UsbSetup
  data : List UInt8
  deriving DecidableEq

structure UnlinkCommand where
  seqnum : ℕ
  unlinkSeqnum : ℕ
  deriving DecidableEq

inductive UrbCommand
  | submit (command : SubmitCommand)
  | unlink (command : UnlinkCommand)
  deriving DecidableEq

structure OperationHeader where
  version : ℕ
  code : ℕ

def decodeOperationHeader (bytes : List UInt8) : OperationHeader :=
  ⟨getUint 2 bytes 0, getUint 2 bytes 2⟩

/-- What the bytes 0x80 to 0x9f stand for. `TextDecoder` takes `ascii` for windows-1252. -/
def windows1252 : List ℕ :=
  [0x20ac, 0x81, 0x201a, 0x192, 0x201e, 0x2026, 0x2020, 0x2021, 0x2c6, 0x2030, 0x160, 0x2039, 0x152,
    0x8d, 0x17d, 0x8f,
    0x90, 0x2018, 0x2019, 0x201c, 0x201d, 0x2022, 0x2013, 0x2014, 0x2dc, 0x2122, 0x161, 0x203a,
    0x153, 0x9d, 0x17e, 0x178]

def decodeCharacter (byte : UInt8) : Char :=
  Char.ofNat (if 0x80 ≤ byte.toNat ∧ byte.toNat < 0xa0 then windows1252.getD (byte.toNat - 0x80) 0
    else byte.toNat)

/-- A bus ID ends before its first zero byte, or with its field. -/
def decodeBusId (bytes : List UInt8) : String :=
  String.ofList ((bytes.takeWhile (· ≠ 0)).map decodeCharacter)

def urbCommandLength (header : List UInt8) : Except String ℕ :=
  let command := getUint 4 header 0
  if command = usbipCmdUnlink then .ok urbHeaderBytes
  else if command ≠ usbipCmdSubmit then .error ("Unknown URB command 0x" ++ hex command ++ ".")
  else if getUint 4 header 0x20 ≠ notIsochronous ∧ getUint 4 header 0x20 ≠ 0 then
    .error "Isochronous transfers are not supported by this device."
  else if getUint 4 header 0x0c ≠ 0 then .ok urbHeaderBytes
  else
    let transferBufferLength := getUint 4 header 0x18
    if maxOutTransferBytes < transferBufferLength then
      .error ("OUT transfer of " ++ toString transferBufferLength ++ " bytes exceeds the " ++
        toString maxOutTransferBytes ++ "-byte limit.")
    else .ok (urbHeaderBytes + transferBufferLength)

def decodeSetup (bytes : List UInt8) : UsbSetup where
  requestType := getUint 1 bytes 0x28
  request := getUint 1 bytes 0x29
  value := getUint16LittleEndian bytes 0x2a
  index := getUint16LittleEndian bytes 0x2c
  length := getUint16LittleEndian bytes 0x2e

def decodeUrbCommand (bytes : List UInt8) : UrbCommand :=
  let seqnum := getUint 4 bytes 0x04
  if getUint 4 bytes 0 = usbipCmdUnlink then .unlink ⟨seqnum, getUint 4 bytes 0x14⟩
  else
    let direction : TransferDirection := if getUint 4 bytes 0x0c = 0 then .dirOut else .dirIn
    let transferBufferLength := getUint 4 bytes 0x18
    .submit
      { seqnum
        direction
        endpointNumber := getUint 4 bytes 0x10
        transferBufferLength
        setup := decodeSetup bytes
        data :=
          if direction = .dirOut then (bytes.drop urbHeaderBytes).take transferBufferLength
          else [] }

/-! ### the length of a command -/

/-- A command has its header and, at most, the largest transfer buffer that is accepted. -/
theorem urbCommandLength_bounds {header : List UInt8} {length : ℕ}
    (h : urbCommandLength header = .ok length) :
    urbHeaderBytes ≤ length ∧ length ≤ urbHeaderBytes + maxOutTransferBytes := by
  unfold urbCommandLength at h
  simp only [] at h
  split at h
  · obtain rfl := Except.ok.inj h
    exact ⟨Nat.le_refl _, Nat.le_add_right _ _⟩
  · split at h
    · cases h
    · split at h
      · cases h
      · split at h
        · obtain rfl := Except.ok.inj h
          exact ⟨Nat.le_refl _, Nat.le_add_right _ _⟩
        · split at h
          · cases h
          · next hcap =>
            obtain rfl := Except.ok.inj h
            exact ⟨Nat.le_add_right _ _, Nat.add_le_add_left (Nat.le_of_not_lt hcap) _⟩

end SerialBroker.Emulator
