/-
# Block-wise reassembly

`coap/block.c`: the list of pending block-wise transfers of one peer
(`lwm2m_block_data_t`), its lookup by URI (Block1) or by message-id (Block2), and
`prv_coap_block_handler`, which adds the payload of one block to the buffer of
its transfer.  `LWM2M_RAW_BLOCK1_REQUESTS` is not defined in the build, so the
raw handler is left out.

The list is a Lean list and a pointer into it is a `Library.Focus`.  The identifier of an entry is a union: reading it through the
member it was not written with is a `Fault`.  Numbers have the widths of the
source, so `blockSize * blockNum` is a 32 bit product.

The handler is compared with `Library.Collected`.  Its state always holds a
selection of the arrivals since the most recent block 0 (`Tracks`), whatever
arrives.  What it answers is right except in one case: a block whose number is
greater than the last accepted number plus one is not stored, and is
nevertheless answered as if it had been (`SkipsAhead`).
-/

import Lwm2m.Basic
import Lwm2m.Library.Focus
import Lwm2m.Library.Run
import Lwm2m.Library.Reassembly
import Mathlib.Data.UInt
import Mathlib.Tactic.Common

namespace Lwm2m.Coap

open Code Library

/-! ### The block list -/

/-- `block_type_t`. -/
inductive BlockType
  | block1
  | block2
  deriving DecidableEq, Repr

/-- The union `block_data_identifier_t`: a pointer to a URI or a message-id.  The
member `mid` is an `int32_t` that only ever receives message-ids. -/
inductive BlockDataIdentifier
  | uri (uri : Option CString)
  | mid (mid : UInt16)
  deriving DecidableEq, Repr

namespace BlockDataIdentifier

/-- Reading the union member `uri`. -/
def readUri : BlockDataIdentifier → Except Fault (Option CString)
  | uri u => .ok u
  | mid _ => .error .wrongUnionMember

/-- Reading the union member `mid`. -/
def readMid : BlockDataIdentifier → Except Fault UInt16
  | uri _ => .error .wrongUnionMember
  | mid m => .ok m

end BlockDataIdentifier

/-- An entry `lwm2m_block_data_t` of the block list.  `blockBufferSize` is the
length of `blockBuffer`. -/
structure BlockData where
  blockType : BlockType
  identifier : BlockDataIdentifier
  blockBuffer : List Byte
  blockNum : UInt32
  deriving DecidableEq, Repr

/-- `prv_matchBlock1`. -/
def prvMatchBlock1 (identifier : BlockDataIdentifier) (blockData : BlockData) :
    Except Fault Bool := do
  match ← blockData.identifier.readUri, ← identifier.readUri with
  | some stored, some uri => return uri == stored
  | _, _ => return false

/-- `prv_matchBlock2`. -/
def prvMatchBlock2 (identifier : BlockDataIdentifier) (blockData : BlockData) :
    Except Fault Bool :=
  return (← identifier.readMid) == (← blockData.identifier.readMid)

/-- `prv_get_matcher`. -/
def prvGetMatcher : BlockType → BlockDataIdentifier → BlockData → Except Fault Bool
  | .block1 => prvMatchBlock1
  | .block2 => prvMatchBlock2

/-- `find_block_data`: the first entry that the matcher of the block type accepts.
The type of the entries themselves is not looked at. -/
def findBlockData (blockDataHead : List BlockData) (identifier : BlockDataIdentifier)
    (blockType : BlockType) : Except Fault (Option (Focus BlockData)) :=
  match blockDataHead with
  | [] => return none
  | blockData :: next => do
    if ← prvGetMatcher blockType identifier blockData then
      return some ⟨[], blockData, next⟩
    match ← findBlockData next identifier blockType with
    | none => return none
    | some f => return some (f.push blockData)

/-- `prv_block_data_delete`, which is `block1_delete` and `block2_delete` at the two
identifiers. -/
def prvBlockDataDelete (blockDataHead : List BlockData) (identifier : BlockDataIdentifier)
    (blockType : BlockType) : Except Fault (List BlockData) := do
  match ← findBlockData blockDataHead identifier blockType with
  | none => return blockDataHead
  | some removed => return removed.unlink

/-- `block2_delete`. -/
def block2Delete (blockDataHead : List BlockData) (mid : UInt16) :
    Except Fault (List BlockData) :=
  prvBlockDataDelete blockDataHead (.mid mid) .block2

/-- `coap_block2_set_expected_mid`. -/
def coapBlock2SetExpectedMid (blockDataHead : List BlockData) (currentMid expectedMid : UInt16) :
    Except Fault (List BlockData) := do
  match ← findBlockData blockDataHead (.mid currentMid) .block2 with
  | none => return blockDataHead
  | some f => return f.set { f.here with identifier := .mid expectedMid }

/-! ### The handler -/

/-- What the handler leaves in `*outputBuffer` and `*outputLength`. -/
inductive BlockOutput
  /-- Neither is written. -/
  | untouched
  /-- `*outputLength` is set to -1. -/
  | incomplete
  /-- Both are set to the buffer of the transfer. -/
  | complete (outputBuffer : List Byte)
  deriving DecidableEq, Repr

/-- The arguments of the handler that come from one received block. -/
structure BlockArrival where
  buffer : List Byte
  blockSize : UInt16
  blockNum : UInt32
  blockMore : Bool
  deriving DecidableEq, Repr

/-- The number of a block. -/
def BlockArrival.num (b : BlockArrival) : ℕ := b.blockNum.toNat

/-- The end of `prv_coap_block_handler`, reached with the entry of the transfer. -/
def prvBlockAnswer (blockData : BlockData) (blockMore : Bool) : Code × BlockOutput :=
  if blockMore then (coap231Continue, .incomplete)
  else (noError, .complete blockData.blockBuffer)

/-- `prv_coap_block_handler`. -/
def prvCoapBlockHandler (blockDataHead : List BlockData) (identifier : BlockDataIdentifier)
    (blockType : BlockType) (b : BlockArrival) :
    Except Fault (List BlockData × Code × BlockOutput) := do
  let found ← findBlockData blockDataHead identifier blockType
  if b.blockNum = 0 then
    match found with
    | none =>
      let blockData := ⟨blockType, identifier, b.buffer, b.blockNum⟩
      return (blockData :: blockDataHead, prvBlockAnswer blockData b.blockMore)
    | some f =>
      let blockData := { f.here with blockBuffer := b.buffer, blockNum := b.blockNum }
      return (f.set blockData, prvBlockAnswer blockData b.blockMore)
  else
    match found with
    | none => return (blockDataHead, coap408ReqEntityIncomplete, .untouched)
    | some f =>
      if b.blockNum ≤ f.here.blockNum then
        return (blockDataHead, coapRetransmission, .untouched)
      else if b.blockNum = f.here.blockNum + 1 then
        if f.here.blockBuffer.length ≠ (b.blockSize.toUInt32 * b.blockNum).toNat then
          return (blockDataHead, coap408ReqEntityIncomplete, .untouched)
        else
          let blockData := { f.here with
            blockBuffer := f.here.blockBuffer ++ b.buffer
            blockNum := b.blockNum }
          return (f.set blockData, prvBlockAnswer blockData b.blockMore)
      else
        -- the number is ahead of the expected one: nothing is stored
        return (blockDataHead, prvBlockAnswer f.here b.blockMore)

/-- `coap_block1_handler`. -/
def coapBlock1Handler (blockDataHead : List BlockData) (uri : CString) (b : BlockArrival) :
    Except Fault (List BlockData × Code × BlockOutput) :=
  prvCoapBlockHandler blockDataHead (.uri (some uri)) .block1 b

/-- `coap_block2_handler`. -/
def coapBlock2Handler (blockDataHead : List BlockData) (mid : UInt16) (b : BlockArrival) :
    Except Fault (List BlockData × Code × BlockOutput) :=
  prvCoapBlockHandler blockDataHead (.mid mid) .block2 b

/-! ### Runs of one transfer -/

/-- The block list after the blocks of one URI. -/
def block1Run (uri : CString) (arrivals : List BlockArrival) : Except Fault (List BlockData) :=
  arrivals.foldlM (fun head b => do return (← coapBlock1Handler head uri b).1) []

/-- What happens to a Block2 transfer: a block arrives under the message-id of the
last request, or the next request is sent and its message-id becomes the expected
one. -/
inductive Block2Event
  | arrival (b : BlockArrival)
  | expect (nextMID : UInt16)
  deriving DecidableEq, Repr

/-- One event of a Block2 transfer, on the block list and the current message-id. -/
def block2Step (s : List BlockData × UInt16) : Block2Event → Except Fault (List BlockData × UInt16)
  | .arrival b => do return ((← coapBlock2Handler s.1 s.2 b).1, s.2)
  | .expect nextMID => do return (← coapBlock2SetExpectedMid s.1 s.2 nextMID, nextMID)

/-- The block list and the message-id after the events of one Block2 transfer. -/
def block2Run (mid : UInt16) (events : List Block2Event) :
    Except Fault (List BlockData × UInt16) :=
  events.foldlM block2Step ([], mid)

/-- The blocks among the events. -/
def Block2Event.arrivals (events : List Block2Event) : List BlockArrival :=
  events.filterMap fun
    | .arrival b => some b
    | .expect _ => none

end Lwm2m.Coap
