import Slopline.Net.Reassembly
import Slopline.Net.SendQueue

/-! What an application queues, and what its peer should receive for it. -/

set_option autoImplicit false

namespace Slopline.Net

open Protocol

variable {κ : Type}

def queuedOf (trace : List Entry) : List Outgoing :=
  trace.filterMap fun entry => match entry.event with
    | .queued outgoing _ => some outgoing
    | _ => none

@[simp] theorem queuedOf_append (first rest : List Entry) :
    queuedOf (first ++ rest) = queuedOf first ++ queuedOf rest := by simp [queuedOf]

@[simp] theorem queuedOf_queued (state : ConnectionState) (outgoing : Outgoing) (wire : Bytes) :
    queuedOf [⟨state, .queued outgoing wire⟩] = [outgoing] := rfl

theorem queuedOf_other (state : ConnectionState) {event : Event}
    (other : ∀ outgoing wire, event ≠ .queued outgoing wire) : queuedOf [⟨state, event⟩] = [] := by
  cases event with
  | queued outgoing wire => exact absurd rfl (other outgoing wire)
  | _ => rfl

def Outgoing.transaction (outgoing : Outgoing) : ReceivedTransaction :=
  ⟨Endpoint.outgoingHeader outgoing, outgoing.data⟩

def Outgoing.wire (outgoing : Outgoing) : Bytes := outgoing.transaction.wire

/-- The transaction that is encoded, the flag the sender chose in its header. -/
def Outgoing.flagged (outgoing : Outgoing) (flag : UInt8) : ReceivedTransaction :=
  ⟨{ Endpoint.outgoingHeader outgoing with flag }, outgoing.data⟩

structure Outgoing.Fits (peer : ConnectionConfig) (outgoing : Outgoing) : Prop where
  nonempty : 0 < outgoing.data.length
  bounded : outgoing.data.length ≤ peer.maxReceiveSize.toNat

theorem Outgoing.Fits.sizes {config : ConnectionConfig} {outgoing : Outgoing} (fits : outgoing.Fits config) :
    outgoing.transaction.header.totalSize.toNat = outgoing.data.length ∧
      outgoing.transaction.header.dataSize.toNat = outgoing.data.length := by
  have small := config.maxReceiveSize.toNat_lt
  have bounded := fits.bounded
  simp only [transaction, Endpoint.outgoingHeader, UInt32.toNat_ofNat']
  omega

structure WholePart (config : ConnectionConfig) (part : ReceivedTransaction) : Prop where
  acceptable : Acceptable config part
  whole : part.header.totalSize = part.header.dataSize

theorem Outgoing.Fits.wholePart {config : ConnectionConfig} {outgoing : Outgoing} (fits : outgoing.Fits config)
    (flag : UInt8) : WholePart config (outgoing.flagged flag) := by
  obtain ⟨total, size⟩ := fits.sizes
  have nonempty := fits.nonempty
  have bounded := fits.bounded
  refine ⟨⟨size, ?_⟩, UInt32.toNat_inj.mp (total.trans size.symm)⟩
  simp only [flagged, transaction, ConnectionConfig.Refuses, not_or, UInt32.not_lt, ← UInt32.toNat_inj,
    UInt32.le_iff_toNat_le, UInt32.toNat_zero] at total size ⊢
  omega

inductive Call.Civil (peer : ConnectionConfig) : Call κ → Prop where
  | queueTransaction {outgoing : Outgoing} {answers : List SendResult} : outgoing.Fits peer →
      (∀ answer ∈ answers, answer.Benign) → Civil peer (.queueTransaction outgoing answers)

structure ConnectionEvents.Civil (peer : ConnectionConfig) (events : ConnectionEvents κ) : Prop where
  onEstablished : ∀ history, ∀ call ∈ events.onEstablished history, Call.Civil peer call
  onTransaction : ∀ history, ∀ call ∈ events.onTransaction history, Call.Civil peer call

theorem civil_silent (peer : ConnectionConfig) : (ConnectionEvents.silent (κ := κ)).Civil peer :=
  ⟨fun _ _ member => (List.not_mem_nil member).elim, fun _ _ member => (List.not_mem_nil member).elim⟩

end Slopline.Net
