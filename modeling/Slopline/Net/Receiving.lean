import Slopline.Net.Service

/-! What one call of `service_readable` reads, and how its receive loop ends. -/

set_option autoImplicit false

namespace Slopline.Net

variable {κ : Type}

def arriving : List RecvResult → Bytes
  | .read chunk :: rest => chunk.bytes ++ arriving rest
  | .error .interrupted :: rest => arriving rest
  | _ => []

def ending : List RecvResult → RecvResult
  | [] => .error .wouldBlock
  | .read _ :: rest | .error .interrupted :: rest => ending rest
  | answer :: _ => answer

def RecvResult.survives : RecvResult → Bool
  | .error .wouldBlock => true
  | _ => false

namespace Connection

variable (events : ConnectionEvents κ)

theorem receiveLoop_open (received : List RecvResult) {c : Connection κ} (shown : c.endpoint.socket.isOpen = true) :
    receiveLoop (received ++ [.error .wouldBlock]) c = (c.feed (arriving received), (ending received).survives) := by
  induction received generalizing c with
  | nil =>
    simp [receiveLoop, receiveStep, Socket.receive, shown, arriving, ending, RecvResult.survives]
  | cons answer received ih =>
    cases answer with
    | read chunk =>
      simp only [List.cons_append, receiveLoop, receiveStep, Socket.receive, shown, Bool.not_true,
        Bool.false_eq_true, if_false]
      rw [ih (by exact shown), arriving, ending, feed_feed]
    | endOfStream =>
      simp [receiveLoop, receiveStep, Socket.receive, shown, arriving, ending, RecvResult.survives]
    | error error =>
      cases error with
      | interrupted =>
        simp only [List.cons_append, receiveLoop, receiveStep, Socket.receive, shown, Bool.not_true,
          Bool.false_eq_true, if_false]
        rw [ih shown, arriving, ending]
      | _ => simp [receiveLoop, receiveStep, Socket.receive, shown, arriving, ending, RecvResult.survives]

theorem receiveLoop_closed (received : List RecvResult) {c : Connection κ}
    (shut : c.endpoint.socket.isOpen = false) : receiveLoop (received ++ [.error .wouldBlock]) c = (c, false) := by
  have gives (answer : RecvResult) : receiveStep answer c = .done (c, false) := by
    simp only [receiveStep, Socket.receive_closed shut]
  cases received <;> simp only [List.nil_append, List.cons_append, receiveLoop, gives]

theorem serviceReadable_open {received : List RecvResult} {answers : List SendResult} {c : Connection κ}
    (alive : c.endpoint.state ≠ .dead) (shown : c.endpoint.socket.isOpen = true) :
    serviceReadable events received answers c =
      if (ending received).survives then parseInbound events answers (c.feed (arriving received))
      else (c.feed (arriving received)).markDead events := by
  rw [serviceReadable, if_neg alive, receiveLoop_open received shown]
  cases (ending received).survives <;> rfl

theorem serviceReadable_closed {received : List RecvResult} {answers : List SendResult} {c : Connection κ}
    (shut : c.endpoint.socket.isOpen = false) : serviceReadable events received answers c = c.markDead events := by
  rw [serviceReadable, receiveLoop_closed received shut]
  split
  next dead => exact congrArg (fun endpoint => { c with endpoint }) (Endpoint.markDead_of_dead events dead).symm
  next => rfl

/-- The bytes a call takes from the socket. -/
def hears (c : Connection κ) : Op κ → Bytes
  | .serviceReadable received _ =>
    if c.endpoint.state = .dead ∨ c.endpoint.socket.isOpen = false then [] else arriving received
  | .serviceWritable _ | .call _ => []

def heard : List (Op κ) → Connection κ → Bytes
  | [], _ => []
  | op :: ops, c => c.hears op ++ heard ops (step events c op)

theorem receiveLoop_hears (received : List RecvResult) (answers : List SendResult) {c : Connection κ}
    (alive : c.endpoint.state ≠ .dead) :
    (receiveLoop (received ++ [.error .wouldBlock]) c).1 = c.feed (c.hears (.serviceReadable received answers)) := by
  cases shown : c.endpoint.socket.isOpen with
  | true => simp only [receiveLoop_open received shown, hears, alive, shown, Bool.true_eq_false, or_self, if_false]
  | false => simp only [receiveLoop_closed received shown, hears, shown, or_true, if_true, feed_nil]

end Connection

end Slopline.Net
