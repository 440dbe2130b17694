import Slopline.Library.Channel
import Slopline.Net.Outgoing
import Slopline.Protocol.TransactionCipher

/-! Hooks whose two directions move on apart.

What `encode` does is one channel, what `decode_header` and `decode_data` do is the same
channel in a state of its own. The hooks around a `TransactionCipher` are of this kind, and
so is a connection without hooks.
-/

set_option autoImplicit false

namespace Slopline.Net

open Protocol Crypto Library

variable {κ δ ρ : Type}

def ReceivedTransaction.letter (part : ReceivedTransaction) : Letter UInt8 := ⟨encodeHeader part.header, part.data⟩

/-- One who speaks: where the coding stands, and what the flags are drawn from. -/
structure Voice (δ ρ : Type) where
  lane : δ
  dice : ρ
  roll : ρ → UInt8 × ρ

namespace Voice

variable (channel : Channel δ UInt8 UInt8)

def flag (roll : ρ → UInt8 × ρ) : ρ → List Outgoing → List ReceivedTransaction
  | _, [] => []
  | dice, outgoing :: queued => outgoing.flagged (roll dice).1 :: flag roll (roll dice).2 queued

def drawn (roll : ρ → UInt8 × ρ) (dice : ρ) (queued : List Outgoing) : ρ :=
  queued.foldl (fun dice _ => (roll dice).2) dice

def parts (voice : Voice δ ρ) (queued : List Outgoing) : List ReceivedTransaction := flag voice.roll voice.dice queued

def utters (voice : Voice δ ρ) (queued : List Outgoing) : Bytes :=
  channel.stream voice.lane ((voice.parts queued).map ReceivedTransaction.letter)

def after (voice : Voice δ ρ) (queued : List Outgoing) : Voice δ ρ where
  lane := channel.after voice.lane ((voice.parts queued).map ReceivedTransaction.letter)
  dice := drawn voice.roll voice.dice queued
  roll := voice.roll

theorem flag_append (roll : ρ → UInt8 × ρ) (dice : ρ) (queued more : List Outgoing) :
    flag roll dice (queued ++ more) = flag roll dice queued ++ flag roll (drawn roll dice queued) more := by
  induction queued generalizing dice with
  | nil => rfl
  | cons outgoing queued ih =>
    rw [List.cons_append, flag, flag, ih, List.cons_append]
    rfl

theorem parts_append (voice : Voice δ ρ) (queued more : List Outgoing) :
    voice.parts (queued ++ more) = voice.parts queued ++ (voice.after channel queued).parts more :=
  flag_append voice.roll voice.dice queued more

@[simp] theorem parts_nil (voice : Voice δ ρ) : voice.parts [] = [] := rfl

@[simp] theorem utters_nil (voice : Voice δ ρ) : voice.utters channel [] = [] := rfl

@[simp] theorem after_nil (voice : Voice δ ρ) : voice.after channel [] = voice := rfl

theorem utters_append (voice : Voice δ ρ) (queued more : List Outgoing) :
    voice.utters channel (queued ++ more) =
      voice.utters channel queued ++ (voice.after channel queued).utters channel more := by
  rw [utters, parts_append channel, List.map_append, channel.stream_append]
  rfl

theorem after_append (voice : Voice δ ρ) (queued more : List Outgoing) :
    voice.after channel (queued ++ more) = (voice.after channel queued).after channel more := by
  have drawn : drawn voice.roll voice.dice (queued ++ more) =
      drawn voice.roll (drawn voice.roll voice.dice queued) more := List.foldl_append
  rw [after, parts_append channel, List.map_append, channel.after_append, drawn]
  rfl

theorem mem_flag {roll : ρ → UInt8 × ρ} {dice : ρ} {queued : List Outgoing} {part : ReceivedTransaction}
    (member : part ∈ flag roll dice queued) : ∃ outgoing ∈ queued, ∃ flag, part = outgoing.flagged flag := by
  induction queued generalizing dice with
  | nil => cases member
  | cons outgoing queued ih =>
    cases member with
    | head => exact ⟨outgoing, List.mem_cons_self, _, rfl⟩
    | tail _ later =>
      obtain ⟨found, among, flag, same⟩ := ih later
      exact ⟨found, List.mem_cons_of_mem _ among, flag, same⟩

end Voice

/-- Hooks that encode and decode by a channel, each direction in a state of its own. -/
structure Duplex (crypto : ConnectionCryptoHooks κ) (channel : Channel δ UInt8 UInt8) (roll : ρ → UInt8 × ρ) where
  sending : κ → δ
  receiving : κ → δ
  dice : κ → ρ
  encodes : ∀ hooks header data,
    let part : ReceivedTransaction := ⟨{ header with flag := (roll (dice hooks)).1 }, data⟩
    let encoded := Endpoint.encodeOutgoing crypto hooks header data
    encoded.1 = channel.coded (sending hooks) part.letter ∧
      sending encoded.2 = channel.next (sending hooks) part.letter ∧
      receiving encoded.2 = receiving hooks ∧ dice encoded.2 = (roll (dice hooks)).2
  readsHeader : ∀ hooks raw,
    let read := readHeader crypto hooks raw
    let head := channel.head (receiving hooks) raw
    read.1 = (channel.flag head.1, head.1) ∧ receiving read.2 = head.2 ∧ sending read.2 = sending hooks ∧
      dice read.2 = dice hooks
  readsData : ∀ hooks raw flag,
    let read := readData crypto hooks raw flag
    let body := channel.body (receiving hooks) flag raw
    read.1 = body.1 ∧ receiving read.2 = body.2 ∧ sending read.2 = sending hooks ∧ dice read.2 = dice hooks

namespace Duplex

variable {crypto : ConnectionCryptoHooks κ} {channel : Channel δ UInt8 UInt8} {roll : ρ → UInt8 × ρ}

def voice (duplex : Duplex crypto channel roll) (hooks : κ) : Voice δ ρ :=
  ⟨duplex.sending hooks, duplex.dice hooks, roll⟩

theorem voice_same (duplex : Duplex crypto channel roll) {hooks hooks' : κ}
    (sending : duplex.sending hooks' = duplex.sending hooks) (dice : duplex.dice hooks' = duplex.dice hooks) :
    duplex.voice hooks' = duplex.voice hooks := by rw [voice, voice, sending, dice]

theorem encodes_outgoing (duplex : Duplex crypto channel roll) (hooks : κ) (outgoing : Outgoing) :
    let encoded := Endpoint.encodeOutgoing crypto hooks (Endpoint.outgoingHeader outgoing) outgoing.data
    encoded.1 = (duplex.voice hooks).utters channel [outgoing] ∧
      duplex.voice encoded.2 = (duplex.voice hooks).after channel [outgoing] ∧
      duplex.receiving encoded.2 = duplex.receiving hooks := by
  intro encoded
  obtain ⟨bytes, sending, receiving, dice⟩ := duplex.encodes hooks (Endpoint.outgoingHeader outgoing) outgoing.data
  refine ⟨bytes.trans (List.append_nil _).symm, ?_, receiving⟩
  rw [voice, sending, dice]
  rfl

def plainChannel : Channel Unit UInt8 UInt8 where
  head _ symbols := (symbols, ())
  body _ _ symbols := (symbols, ())
  flag _ := 0
  length_head _ _ := rfl
  length_body _ _ _ := rfl
  head_head _ _ := rfl
  body_body _ _ _ := rfl

def plain : Duplex ({} : ConnectionCryptoHooks κ) plainChannel (fun _ : Unit => (0, ())) where
  sending _ := ()
  receiving _ := ()
  dice _ := ()
  encodes _ _ _ := ⟨rfl, rfl, rfl, rfl⟩
  readsHeader _ _ := ⟨rfl, rfl, rfl, rfl⟩
  readsData _ _ _ := ⟨rfl, rfl, rfl, rfl⟩

/-- Without hooks what is queued is what should be received. -/
theorem plain_parts (hooks : κ) (queued : List Outgoing) :
    (plain.voice hooks).parts queued = queued.map Outgoing.transaction := by
  induction queued with
  | nil => rfl
  | cons outgoing queued ih => exact congrArg _ ih

end Duplex

section

variable {H : MessageDigest}

end

end Slopline.Net
