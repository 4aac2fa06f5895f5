import GwWeb.ReceiveDeframing

/-!
What `assemble_frame_and_send` delivers to a client over a socket that need not accept
all it is handed. The calls for one connection come one after the other, by
`send_mutex`.
-/

namespace GwWeb.FrameSending

open StreamDecoding
open GwWeb.Receive
open GwWeb.ReceiveDeframing

/-- A non-blocking `send`: it fails, or accepts a part of what it is handed. -/
structure Socket where
  send : List UInt8 → Int
  accepts : ∀ bytes, bytes ≠ [] → send bytes = -1 ∨ 1 ≤ send bytes ∧ send bytes ≤ bytes.length

/-- One call of `assemble_frame_and_send`, with the state of the receiver and the
socket that it finds. -/
structure SendCall where
  message : Message
  receiver : GReceivePara
  socket : Socket

namespace SendCall

variable (c : SendCall)

/-- What `assemble_frame_and_send` returns, and the bytes that the socket takes. -/
def result : Int × List UInt8 :=
  assembleFrameAndSend c.socket.send (some c.receiver) c.message.payload c.message.type

/-- The bytes that the socket took. -/
def delivered : List UInt8 := c.result.2.take c.result.1.toNat

/-- `send` takes the whole frame or nothing, if it is called. -/
def TakesWhole : Prop :=
  c.receiver.working ≠ .socketClose →
    c.socket.send c.message.frame = -1 ∨ c.socket.send c.message.frame = c.message.frame.length

instance : Decidable c.TakesWhole := inferInstanceAs (Decidable (_ → _))

theorem delivered_of_closed (h : c.receiver.working = .socketClose) : c.delivered = [] := by
  simp [delivered, result, assembleFrameAndSend, h]

theorem delivered_of_open (h : c.receiver.working ≠ .socketClose) :
    c.delivered = c.message.frame.take (c.socket.send c.message.frame).toNat := by
  simp [delivered, result, assembleFrameAndSend, h, Message.frame]

theorem delivered_isPrefix : c.delivered <+: c.message.frame := by
  by_cases h : c.receiver.working = .socketClose
  · rw [c.delivered_of_closed h]
    exact List.nil_prefix
  · rw [c.delivered_of_open h]
    exact List.take_prefix _ _

theorem takesWhole_iff : c.TakesWhole ↔ c.delivered = [] ∨ c.delivered = c.message.frame := by
  have hlength := frame_length c.message
  by_cases h : c.receiver.working = .socketClose
  · exact iff_of_true (fun hopen => absurd h hopen) (.inl (c.delivered_of_closed h))
  · have hne : c.message.frame ≠ [] := by
      intro hnil
      simp [hnil] at hlength
    have haccepts := c.socket.accepts c.message.frame hne
    rw [TakesWhole, c.delivered_of_open h]
    simp only [h, not_false_eq_true, true_implies, ne_eq, List.take_eq_nil_iff, hne, or_false,
      List.take_eq_self_iff]
    omega

end SendCall

/-- What the client has got of each message. -/
def pieces (calls : List SendCall) : List (Message × List UInt8) :=
  calls.map fun c => (c.message, c.delivered)

/-- The client gets whole frames of some of the messages, in call order, and no frame
cut short is followed by another. -/
def DeliversFrames (calls : List SendCall) : Prop :=
  PrefixDecoder.DeliversWhole Message.frame (pieces calls)

/-- The client gets whole frames if and only if each `send` takes the whole frame or
nothing. -/
theorem deliversFrames_iff (calls : List SendCall) :
    DeliversFrames calls ↔ ∀ c ∈ calls, c.TakesWhole := by
  rw [DeliversFrames, PrefixDecoder.deliversWhole_iff frameDecoder_encodes]
  · simp only [pieces, List.forall_mem_map, SendCall.takesWhole_iff]
  · intro piece hpiece
    obtain ⟨c, -, rfl⟩ := List.mem_map.mp hpiece
    exact c.delivered_isPrefix

/-- A socket with room for `n` more bytes. -/
def socketOf (n : Nat) (hn : 0 < n) : Socket where
  send := fun bytes => min n bytes.length
  accepts := fun bytes hne => by
    have hlength := List.length_pos_iff.mpr hne
    omega

/-- A client with a socket that is open. -/
def receiver : GReceivePara := createRecvParam 7 fun _ => 0

def reply (payload : List UInt8) (h : payload.length + 8 < 2147483648) (n : Nat) (hn : 0 < n) :
    SendCall :=
  { message := ⟨2, payload, h⟩, receiver, socket := socketOf n hn }

/-- The first frame is cut behind its length word; the next one follows. -/
theorem cut_frame_not_delivered :
    ∃ calls, (calls.map SendCall.delivered).flatten =
        [0, 0, 0, 6] ++ [0, 0, 0, 5, 0, 0, 0, 2, 1] ∧ ¬ DeliversFrames calls := by
  let first := reply [1, 2] (by decide) 4 (by decide)
  let second := reply [1] (by decide) 20 (by decide)
  refine ⟨[first, second], by decide, fun h => ?_⟩
  have hnothing := h.uncut [] (first.message, first.delivered) [(second.message, second.delivered)]
    rfl (by decide) (by decide)
  exact absurd hnothing (by decide)

end GwWeb.FrameSending
