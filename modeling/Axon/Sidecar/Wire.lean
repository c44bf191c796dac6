import Axon.Foundation.Bytes
import Axon.Types

/-! # The sidecar's wire format

Two kinds of messages share the byte stream of a sidecar connection, a pool handshake and a sync fence.
Each is a fixed-size header, sent in one piece together with its file descriptors; a pool handshake is
followed by the import blob, whose length the header tells.

* `PoolHandshakeHeader.encode` and `SyncFenceHeader.encode` are the structs' bytes, 24 and 16 of them;
  `decode` reads them back.
* **`Message.segments`** is a message as the pieces in which it arrives. The blob may be cut anywhere. -/

namespace Axon

open Foundation

/-- An open file description: what a file descriptor refers to, in whichever process. -/
structure File where
  id : ℕ
  /-- Its size in bytes. -/
  bytes : ℕ
  deriving DecidableEq, Inhabited, Repr

/-- A file descriptor of one process. `num` tells apart all descriptors the process ever had, so a
closed one is never confused with a later one. -/
structure Fd where
  num : ℕ
  file : File
  deriving DecidableEq, Inhabited, Repr

/-- Largest backend import blob one pool handshake can carry. -/
def kMaxHandshakeExt : ℕ := 65535

/-- Maximum FDs deliverable in a single SCM_RIGHTS message. -/
def kMaxSidecarFds : ℕ := 32

namespace SidecarMsg

/-- Tag of a pool handshake. -/
def PoolHandshake : UInt8 := 1
/-- Tag of a sync fence. -/
def SyncFence : UInt8 := 2

end SidecarMsg

/-! ## Headers -/

/-- The payload that accompanies a pool handshake. -/
structure PoolHandshakeHeader where
  msg : UInt8
  /-- Host-mmap vs device-import. -/
  backend : UInt8
  /-- Bytes of import blob after this header. -/
  extLen : UInt16
  wireVersion : UInt32
  poolGeneration : UInt32
  nBuffers : UInt32
  bufferSize : UInt64
  deriving DecidableEq, Inhabited, Repr

namespace PoolHandshakeHeader

/-- `sizeof(PoolHandshakeHeader)`. -/
def size : ℕ := 24

/-- The bytes of the struct. -/
def encode (h : PoolHandshakeHeader) : List UInt8 :=
  leBytes 1 h.msg.toNat ++ (leBytes 1 h.backend.toNat ++ (leBytes 2 h.extLen.toNat ++
    (leBytes 4 h.wireVersion.toNat ++ (leBytes 4 h.poolGeneration.toNat ++
      (leBytes 4 h.nBuffers.toNat ++ leBytes 8 h.bufferSize.toNat)))))

/-- The struct read from its bytes. -/
def decode (bs : List UInt8) : PoolHandshakeHeader where
  msg := .ofNat (leField 0 1 bs)
  backend := .ofNat (leField 1 1 bs)
  extLen := .ofNat (leField 2 2 bs)
  wireVersion := .ofNat (leField 4 4 bs)
  poolGeneration := .ofNat (leField 8 4 bs)
  nBuffers := .ofNat (leField 12 4 bs)
  bufferSize := .ofNat (leField 16 8 bs)

/-- A header has as many bytes as its struct. -/
@[simp] theorem length_encode (h : PoolHandshakeHeader) : h.encode.length = size := by
  simp [encode, size]

/-- The header survives the trip through its bytes. -/
@[simp] theorem decode_encode (h : PoolHandshakeHeader) : decode h.encode = h := by
  simp [decode, encode, leField_append, leField_zero_append, leField_zero]

end PoolHandshakeHeader

/-- The payload that accompanies a sync fence; its seven reserved bytes are zero. -/
structure SyncFenceHeader where
  msg : UInt8
  syncFenceToken : UInt64
  deriving DecidableEq, Inhabited, Repr

namespace SyncFenceHeader

/-- `sizeof(SyncFenceHeader)`. -/
def size : ℕ := 16

/-- The bytes of the struct. -/
def encode (h : SyncFenceHeader) : List UInt8 :=
  leBytes 1 h.msg.toNat ++ (leBytes 7 0 ++ leBytes 8 h.syncFenceToken.toNat)

/-- The struct read from its bytes. -/
def decode (bs : List UInt8) : SyncFenceHeader where
  msg := .ofNat (leField 0 1 bs)
  syncFenceToken := .ofNat (leField 8 8 bs)

/-- A header has as many bytes as its struct. -/
@[simp] theorem length_encode (h : SyncFenceHeader) : h.encode.length = size := by
  simp [encode, size]

/-- The header survives the trip through its bytes. -/
@[simp] theorem decode_encode (h : SyncFenceHeader) : decode h.encode = h := by
  simp [decode, encode, leField_append, leField_zero_append, leField_zero]

end SyncFenceHeader

/-! ## Messages -/

/-- One message of a sidecar connection, with what it carries out of band. -/
inductive Message
  /-- A pool bundle: header, the buffers' FDs and the import blob. -/
  | pool (header : PoolHandshakeHeader) (files : List File) (ext : List UInt8)
  /-- A sync fence: header and one FD. -/
  | fence (header : SyncFenceHeader) (file : File)
  deriving DecidableEq

namespace Message

/-- How many bytes of the stream the message takes. -/
def size : Message → ℕ
  | pool _ _ ext => PoolHandshakeHeader.size + ext.length
  | fence _ _ => SyncFenceHeader.size

/-- The FDs sent along. -/
def files : Message → List File
  | pool _ files _ => files
  | fence _ file => [file]

/-- **What a well-behaved server sends**: the tag names the kind, and the length in a pool header is that
of the blob behind it. -/
def WellFormed : Message → Prop
  | pool header _ ext => header.msg = SidecarMsg.PoolHandshake ∧ header.extLen.toNat = ext.length
  | fence header _ => header.msg = SidecarMsg.SyncFence

/-- Everything a server sends in one message fits one `recvmsg`. -/
def Deliverable (m : Message) : Prop := m.WellFormed ∧ m.files.length ≤ kMaxSidecarFds

end Message

/-- What one receive call finds in a socket: bytes that arrived in one piece, with the FDs attached to
the first of them. -/
structure Segment where
  payload : List UInt8
  files : List File
  deriving DecidableEq

/-- A piece without FDs. -/
def Segment.isPlain (seg : Segment) : Bool := seg.files.isEmpty

/-- A piece of a message without FDs. -/
def Segment.plain (payload : List UInt8) : Segment := ⟨payload, []⟩

/-- The bytes of segments. -/
def byteCount (segs : List Segment) : ℕ := (segs.map fun seg => seg.payload.length).sum

/-- The bytes of all segments add up. -/
@[simp] theorem byteCount_cons (seg : Segment) (segs : List Segment) :
    byteCount (seg :: segs) = seg.payload.length + byteCount segs := rfl

/-- The bytes of all segments add up. -/
@[simp] theorem byteCount_append (segs segs' : List Segment) :
    byteCount (segs ++ segs') = byteCount segs + byteCount segs' := by
  rw [byteCount, List.map_append, List.sum_append, byteCount, byteCount]

/-- Pieces without FDs have the bytes that they were cut from. -/
@[simp] theorem byteCount_plain (pieces : List (List UInt8)) :
    byteCount (pieces.map Segment.plain) = pieces.flatten.length := by
  induction pieces with
  | nil => rfl
  | cons p ps ih => rw [List.map_cons, byteCount_cons, ih, List.flatten_cons, List.length_append]; rfl

/-- **How a message arrives**: its header in one piece with the FDs, its blob in any nonempty pieces. -/
inductive Message.Arrives : Message → List Segment → Prop
  | pool (header : PoolHandshakeHeader) (files : List File) (pieces : List (List UInt8))
      (hne : [] ∉ pieces) :
      Arrives (.pool header files pieces.flatten)
        (⟨header.encode, files⟩ :: pieces.map Segment.plain)
  | fence (header : SyncFenceHeader) (file : File) :
      Arrives (.fence header file) [⟨header.encode, [file]⟩]

/-- The segments in which a message arrives when its blob is cut into `pieces`; `none` when these are not
pieces of its blob. -/
def Message.segments (pieces : List (List UInt8)) : Message → Option (List Segment)
  | .pool header files ext =>
      if pieces.flatten = ext ∧ [] ∉ pieces then
        some (⟨header.encode, files⟩ :: pieces.map Segment.plain)
      else none
  | .fence header file => some [⟨header.encode, [file]⟩]

/-- The segments that a message is cut into are a way for it to arrive. -/
theorem Message.arrives_of_segments {m : Message} {pieces : List (List UInt8)} {segs : List Segment}
    (h : m.segments pieces = some segs) : m.Arrives segs := by
  cases m with
  | pool header files ext =>
      rw [Message.segments] at h
      split_ifs at h with hpieces
      cases h
      obtain ⟨rfl, hne⟩ := hpieces
      exact .pool header files pieces hne
  | fence header file =>
      cases h
      exact .fence header file

/-- How a sequence of messages arrives: one after the other. -/
inductive Message.ArriveAll : List Message → List Segment → Prop
  | nil : ArriveAll [] []
  | cons {m : Message} {ms : List Message} {segs rest : List Segment} (h : m.Arrives segs)
      (hrest : ArriveAll ms rest) : ArriveAll (m :: ms) (segs ++ rest)

end Axon
