import AsioNet.CsNetwork.BlockMalloc
import AsioNet.CsNetwork.RingBuffer
import AsioNet.Framing

/-! # The client's socket (`SocketClient.cs`)

    `WrapSendData` puts an 11-byte head before a body, `Recv` takes the next frame
    out of the receive ring and hands its entries to the handler. Both take their
    arrays from the block pool; here they take them from any `Allocator`, of which
    the pool is one.

    The host is little-endian.
-/

namespace AsioNet.CsNetwork

open Exec

/-- Where a client gets its arrays from. -/
structure Allocator (σ : Type) where
  Alloc : Int32 → Exec stop σ (Option block)
  Free : Option block → Exec stop σ PUnit

/-- `BlockPool.Instance` -/
def BlockPool.allocator : Allocator BlockPool.statics where
  Alloc := BlockPool.instance_Alloc
  Free := BlockPool.instance_Free

/-- An allocator that makes a new array each time. -/
def Allocator.new_arrays : Allocator Nat where
  Alloc size := of fun next => (.ok (some ⟨next, List.replicate size.toNatClampNeg 0⟩), next + 1)
  Free _ := pure .unit

namespace TcpContentHead

def HEAD_SIZE : Nat := 11
def STATIC_FRAME_KEY : UInt8 := 0x2e
def COMMON_CMD : UInt16 := 0

end TcpContentHead

structure SocketClient where
  _sendSeq : UInt32
  _recvSeq : UInt32
  _sendBuffer : RingBuffer
  _recvBuffer : RingBuffer
  _sendFrameHead : List UInt8
  _recvFrameHead : List UInt8
  /-- The commands handed to `OnNetworkCmd`; none while it is null. -/
  OnNetworkCmd : Option (List UInt16)
  /-- Whether `RecvHandler` is set. -/
  RecvHandler : Bool
  /-- The arrays handed to a handler, with the sizes. -/
  handled : List (byte_array × UInt16)

/-- A client and the allocator it shares. -/
structure client_state (σ : Type) where
  client : SocketClient
  pool : σ

namespace SocketClient

def MAX_SEND_BUFFER_SIZE : Int32 := 10 * 1024 * 1024
def MAX_RECV_BUFFER_SIZE : Int32 := 10 * 1024 * 1024
def MAX_TCP_CONTENT_SIZE : Int32 := 1460
def MAX_FRAME_SIZE : Int32 := 1460 - 11

/-- `new SocketClient()` -/
def make : SocketClient where
  _sendSeq := 0
  _recvSeq := 0
  _sendBuffer := .make MAX_SEND_BUFFER_SIZE
  _recvBuffer := .make MAX_RECV_BUFFER_SIZE
  _sendFrameHead := List.replicate TcpContentHead.HEAD_SIZE 0
  _recvFrameHead := List.replicate TcpContentHead.HEAD_SIZE 0
  OnNetworkCmd := none
  RecvHandler := false
  handled := []

variable {σ : Type}

def on_pool {α : Type} (x : Exec stop σ α) : Exec stop (client_state σ) α :=
  zoom (fun s => s.pool) (fun pool s => { s with pool := pool }) x

/-! ### Sending -/

def nextSeq (seq : UInt32) : UInt32 := seq + 1

/-- The eleven stores to `_sendFrameHead`. -/
def head_bytes (len : UInt32) (cmd : UInt16) (seq : UInt32) : List UInt8 :=
  [TcpContentHead.STATIC_FRAME_KEY,
    ((len >>> 24) &&& 0xFF).toUInt8, ((len >>> 16) &&& 0xFF).toUInt8,
    ((len >>> 8) &&& 0xFF).toUInt8, (len &&& 0xFF).toUInt8,
    ((cmd >>> 8) &&& 0xFF).toUInt8, (cmd &&& 0xFF).toUInt8,
    ((seq >>> 24) &&& 0xFF).toUInt8, ((seq >>> 16) &&& 0xFF).toUInt8,
    ((seq >>> 8) &&& 0xFF).toUInt8, (seq &&& 0xFF).toUInt8]

/-- One round of the copy loop, on `newRet`. -/
def copy_round (head data : List UInt8) (i : Nat) : Exec stop (Option block) PUnit := do
  let newRet ← get
  let byte ← lift (if i < TcpContentHead.HEAD_SIZE then load head (Int32.ofNat i)
    else load data (Int32.ofNat (i - TcpContentHead.HEAD_SIZE)))
  let b ← lift (deref newRet)
  let cells ← lift (store b.cells (Int32.ofNat i) byte)
  set (some { b with cells := cells })

def WrapSendData (A : Allocator σ) (data : List UInt8) (length : Int32) :
    Exec stop (client_state σ) DataBlock := do
  let len : UInt32 := (if 0 < length then length else Int32.ofNat data.length).toUInt32
  let cmd := TcpContentHead.COMMON_CMD
  let s ← get
  let seq := nextSeq s.client._sendSeq
  let head := head_bytes len cmd seq
  set { s with client := { s.client with _sendSeq := seq, _sendFrameHead := head } }
  let arrLength := Int32.ofNat TcpContentHead.HEAD_SIZE + len.toInt32
  let newRet ← on_pool (A.Alloc arrLength)
  let newRet ← of fun s =>
    let copied := exec (for_loop (copy_round head data) arrLength.toNatClampNeg 0) newRet
    (copied.1.map fun _ => copied.2, s)
  pure ⟨newRet, arrLength⟩

/-! ### Receiving -/

/-- `BitConverter.ToUInt16` -/
def ToUInt16 (cells : List UInt8) (i : Nat) : UInt16 :=
  of_host_uint16 (cells.getD i 0) (cells.getD (i + 1) 0)

/-- `BitConverter.ToUInt32` -/
def ToUInt32 (cells : List UInt8) (i : Nat) : UInt32 :=
  of_host_uint32 (cells.getD i 0) (cells.getD (i + 1) 0) (cells.getD (i + 2) 0)
    (cells.getD (i + 3) 0)

/-- What `Recv` reads in `_recvFrameHead`. -/
structure recv_head where
  len : UInt32
  cmd : UInt16
  seq : UInt32
  deriving DecidableEq, Repr

def decode_head (head : List UInt8) : recv_head where
  len := ToUInt32 head 1
  cmd := ToUInt16 head 5
  seq := ToUInt32 head 7

/-- The peek at the head. -/
def read_head : Exec stop (client_state σ) Bool :=
  zoom (fun s => (s.client._recvBuffer, some s.client._recvFrameHead))
    (fun r s => { s with
      client := { s.client with _recvBuffer := r.1, _recvFrameHead := r.2.getD [] } })
    (RingBuffer.TryRead (Int32.ofNat TcpContentHead.HEAD_SIZE) true)

/-- The consuming read into `frameBody`; returns the block with what was read. -/
def read_body (len : Int32) (frameBody : Option block) :
    Exec stop (client_state σ) (Bool × Option block) :=
  of fun s =>
    let read := exec (RingBuffer.TryRead len false)
      (s.client._recvBuffer, frameBody.map fun b => b.cells)
    (read.1.map fun found =>
      (found, frameBody.map fun b => { b with cells := read.2.2.getD b.cells }),
      { s with client := { s.client with _recvBuffer := read.2.1 } })

/-- `handler(pb, size)`, or `RecvHandler(pb, size)` when `handler` is null. -/
def call_handler (handler : Bool) (pb : byte_array) (size : UInt16) :
    Exec stop (client_state σ) PUnit := do
  let s ← get
  if handler || s.client.RecvHandler then
    set { s with client := { s.client with handled := s.client.handled ++ [(pb, size)] } }
  else throw .NullReferenceException

/-- One round of the loop that copies an entry to `pb`. -/
def entry_round (frameBody : byte_array) (pbIndex i : Nat) : Exec stop (Option block) PUnit := do
  let pb ← get
  let byte ← lift (deref frameBody >>= fun body => load body (Int32.ofNat (pbIndex + i)))
  let b ← lift (deref pb)
  let cells ← lift (store b.cells (Int32.ofNat i) byte)
  set (some { b with cells := cells })

/-- `BitConverter.ToUInt16` on a reference: both a null array and an index too near
    its end are bad arguments. -/
def read_size (frameBody : byte_array) (pbIndex : Nat) : Except stop UInt16 :=
  match frameBody with
  | none => .error .ArgumentException
  | some body =>
    if pbIndex + 2 > body.length then .error .ArgumentException else .ok (ToUInt16 body pbIndex)

/-- The loop over the entries of the body. A round moves `pbIndex` on by two at
    least, so `rounds` is more than enough when it is `len`. -/
def cut_entries (A : Allocator σ) (handler : Bool) (len : UInt32) (frameBody : byte_array) :
    Nat → Nat → Exec stop (client_state σ) PUnit
  | 0, _ => pure .unit
  | rounds + 1, pbIndex => do
    if pbIndex ≥ len.toNat then pure .unit
    else
      let size ← lift (read_size frameBody pbIndex)
      let pbIndex := pbIndex + 2
      let pb ← on_pool (A.Alloc (Int32.ofNat size.toNat))
      let pb ← of fun s =>
        let copied := exec (for_loop (entry_round frameBody pbIndex) size.toNat 0) pb
        (copied.1.map fun _ => copied.2, s)
      call_handler handler (pb.map fun b => b.cells) size
      cut_entries A handler len frameBody rounds (pbIndex + size.toNat)

def Recv (A : Allocator σ) (handler : Bool) : Exec stop (client_state σ) Bool := do
  let found ← read_head
  if found = false then pure false
  else
    let s ← get
    let head := decode_head s.client._recvFrameHead
    let heard := if head.cmd ≠ TcpContentHead.COMMON_CMD then
        s.client.OnNetworkCmd.map fun cmds => cmds ++ [head.cmd]
      else s.client.OnNetworkCmd
    set { s with client := { s.client with _recvSeq := head.seq, OnNetworkCmd := heard } }
    let frameBody ← on_pool (A.Alloc head.len.toInt32)
    let (found, frameBody) ← read_body head.len.toInt32 frameBody
    if found = false then
      on_pool (A.Free frameBody)
      pure false
    else
      -- when this returns false the source only logs an error
      let _ ← zoom (fun s => s.client._recvBuffer)
        (fun r s => { s with client := { s.client with _recvBuffer := r } })
        (RingBuffer.TryReadShift (Int32.ofNat TcpContentHead.HEAD_SIZE))
      cut_entries A handler head.len (frameBody.map fun b => b.cells) (head.len.toNat + 1) 0
      on_pool (A.Free frameBody)
      pure true

end SocketClient

end AsioNet.CsNetwork
