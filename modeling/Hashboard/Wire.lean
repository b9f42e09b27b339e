/-!
# The numbers of the wire

Sizes, codes and addresses that the controller and its boards agree on. Every other module takes them
from here.
-/

namespace Hashboard.Wire

/-! ## Transactions -/

/-- A transaction exchanges this many bytes in each direction. -/
def transactionLength : Nat := 4096

def frameLength : Nat := 48

def headerLength : Nat := 12

def recordLength : Nat := 12

/-- Whole request frames that fit into one transaction. -/
def framesPerTransaction : Nat := transactionLength / frameLength

/-- The filler behind the last request frame. -/
def nop : UInt8 := 0x04

/-! ## Requests and work ids -/

def submitRequest : UInt8 := 2

def flushRequest : UInt8 := 3

/-- The first byte of a request: its code in the high four bits. -/
def commandByte (request : UInt8) : UInt8 := request <<< 4

/-- The bits of a sixteen-bit field that hold a work id. -/
def idMask : UInt16 := 0x7fff

def idSpace : Nat := 32768

/-! ## Work -/

def midstateLength : Nat := 32

def dataLength : Nat := 80

/-- Where the part of the data block that goes on the wire starts. -/
def tailOffset : Nat := 64

def tailLength : Nat := 12

/-- The hashes that one completed work item stands for. -/
def hashesPerWork : UInt64 := 4294967296

/-! ## Boards and their control bus -/

def coresPerBoard : Nat := 192

def coreStatusOk : UInt8 := 3

/-- Core statuses are read in blocks of this many bytes. -/
def statusBlockLength : Nat := 32

def firstBoardSlave : UInt16 := 0x20

def lastBoardSlave : UInt16 := 0x26

def thermalSlave : UInt16 := 0x48

/-- The thermometer of board `n` sits on adapter `n` plus this. -/
def thermalAdapterOffset : Nat := 3

/-! ## Line settings -/

def spiSpeedHz : Nat := 3000000
def spiDelayMicros : Nat := 0
def spiBitsPerWord : Nat := 8
def spiMode : Nat := 7

/-- The pause between two polls when nothing asks for a sooner one, in microseconds. -/
def pollIntervalMicros : Nat := 10000

end Hashboard.Wire
