import Slopline.Net.ReceiveCap

/-! The parser reads what the reader reads.

Two rounds of the parser, one for a header and one for its data, are one step of the
reader; where the reader stops, the parser delivers nothing more.
-/

set_option autoImplicit false

namespace Slopline.Net

open Protocol Library

variable {κ : Type}

namespace Connection

variable (events : ConnectionEvents κ)

def AtHeader (c : Connection κ) : Prop := c.inlet.receiveStage = .header ∧ c.inlet.pendingData = []

structure AtData (c : Connection κ) : Prop where
  stage : c.inlet.receiveStage = .data
  pendingData : c.inlet.pendingData = []
  expected : c.inlet.expectedBytes = c.inlet.pendingHeader.dataSize.toNat

def framedData (c : Connection κ) : Framed κ :=
  frameData c.endpoint.crypto c.endpoint.hooks c.inlet.pendingHeader c.inlet.pendingFlag c.inlet.inbound

def framed (c : Connection κ) : Framed κ :=
  frame c.config c.endpoint.crypto c.endpoint.hooks c.inlet.inbound

theorem parseStep_data_short (answers : List SendResult) {c : Connection κ} (waiting : c.Waiting) (at_ : c.AtData)
    (short : c.framedData = .short) : parseStep events answers c = .done c := by
  rw [parseStep_waiting events answers waiting, at_.stage]
  unfold framedData frameData at short
  split at short
  next few => simp only [dataStage, at_.expected, if_pos few]
  next => cases short

theorem parseStep_data_part (answers : List SendResult) {c : Connection κ} (waiting : c.Waiting) (at_ : c.AtData)
    {part : ReceivedTransaction} {hooks : κ} {rest : Bytes} (framed : c.framedData = .part part hooks rest) :
    ∃ next, parseStep events answers c = .again next ∧ next.reader = c.reader.take events part hooks rest ∧
      next.AtHeader ∧ next.config = c.config := by
  rw [parseStep_waiting events answers waiting, at_.stage]
  unfold framedData frameData at framed
  split at framed
  · cases framed
  next enough =>
    cases framed
    simp only [dataStage, at_.expected, if_neg enough, completeTransaction_eq]
    refine ⟨_, rfl, ?_, ⟨rfl, rfl⟩, rfl⟩
    simp [reader, Reader.take, expectHeader, takeData, at_.pendingData, at_.expected]

theorem parseStep_header (answers : List SendResult) {c : Connection κ} (waiting : c.Waiting)
    (stage : c.inlet.receiveStage = .header) :
    parseStep events answers c =
      if c.inlet.inbound.length < kTransactionHeaderSize then .done c
      else if c.config.Refuses c.takeHeader.inlet.pendingHeader then .done (c.takeHeader.markDead events)
      else .again c.takeHeader.expectData := by
  rw [parseStep_waiting events answers waiting, stage]
  rfl

theorem framed_eq (c : Connection κ) :
    c.framed =
      if c.inlet.inbound.length < kTransactionHeaderSize then .short
      else if c.config.Refuses c.takeHeader.inlet.pendingHeader then .refused
      else c.takeHeader.expectData.framedData := rfl

theorem expectData_atData (c : Connection κ) : c.expectData.AtData := ⟨rfl, rfl, rfl⟩

theorem parse_part (answers : List SendResult) {c : Connection κ} (waiting : c.Waiting)
    (stage : c.inlet.receiveStage = .header) {part : ReceivedTransaction} {hooks : κ} {rest : Bytes}
    (framed : c.framed = .part part hooks rest) :
    ∃ next, Loop.Reaches (parseStep events answers) c next ∧
      next.reader = c.reader.take events part hooks rest ∧ next.AtHeader ∧ next.config = c.config := by
  have round := parseStep_header events answers waiting stage
  rw [framed_eq] at framed
  split at framed
  · cases framed
  next enough =>
    rw [if_neg enough] at round
    split at framed
    · cases framed
    next accepted =>
      rw [if_neg accepted] at round
      obtain ⟨next, second, taken, header, config⟩ := parseStep_data_part events answers
        (c := c.takeHeader.expectData) waiting (expectData_atData _) framed
      exact ⟨next, .next round (.next second (.refl _)), taken, header, config⟩

theorem parse_short (answers : List SendResult) {c : Connection κ} (waiting : c.Waiting)
    (stage : c.inlet.receiveStage = .header) (short : c.framed = .short) :
    ∃ hooks, (parseInbound events answers c).endpoint = { c.endpoint with hooks } ∧
      (parseInbound events answers c).inlet.partials = c.inlet.partials := by
  unfold parseInbound
  have round := parseStep_header events answers waiting stage
  rw [framed_eq] at short
  split at short
  next few =>
    rw [if_pos few] at round
    rw [Loop.run_done _ _ round]
    exact ⟨_, rfl, rfl⟩
  next enough =>
    rw [if_neg enough] at round
    split at short
    · cases short
    next accepted =>
      rw [if_neg accepted] at round
      have second := parseStep_data_short events answers (c := c.takeHeader.expectData) waiting
        (expectData_atData _) short
      rw [Loop.run_again _ _ round, Loop.run_done _ _ second]
      exact ⟨_, rfl, rfl⟩

theorem parseInbound_refused (answers : List SendResult) {c : Connection κ} (waiting : c.Waiting)
    (stage : c.inlet.receiveStage = .header) (refused : c.framed = .refused) :
    parseInbound events answers c = c.takeHeader.markDead events := by
  have round := parseStep_header events answers waiting stage
  rw [framed_eq] at refused
  split at refused
  · cases refused
  next enough =>
    rw [if_neg enough] at round
    split at refused
    next refuses =>
      rw [if_pos refuses] at round
      exact Loop.run_done _ _ round
    next =>
      unfold framedData frameData at refused
      split at refused <;> cases refused

theorem parse_refused (answers : List SendResult) {c : Connection κ} (waiting : c.Waiting)
    (stage : c.inlet.receiveStage = .header) (refused : c.framed = .refused) :
    (parseInbound events answers c).endpoint.state = .dead := by
  rw [parseInbound_refused events answers waiting stage refused]
  exact Endpoint.markDead_dead events _

theorem parse_stops (answers : List SendResult) {c : Connection κ} (stage : c.inlet.receiveStage = .header)
    (stops : ¬ c.Waiting ∨ c.framed = .short ∨ c.framed = .refused) :
    Idle c.endpoint.trace (parseInbound events answers c).endpoint.trace := by
  by_cases waiting : c.Waiting
  · rcases stops.resolve_left (not_not_intro waiting) with short | refused
    · obtain ⟨_, same, _⟩ := parse_short events answers waiting stage short
      rw [same]
      exact ⟨List.prefix_rfl, rfl⟩
    · rw [parseInbound_refused events answers waiting stage refused]
      exact (Endpoint.markDead_later events c.takeHeader.endpoint).idle
  · rw [parseInbound, Loop.run_done _ _ (parseStep_resting events answers waiting)]
    exact ⟨List.prefix_rfl, rfl⟩

theorem parse_header_idle (answers : List SendResult) {c : Connection κ} (stage : c.inlet.receiveStage = .header) :
    Idle (c.reader.run events c.config).endpoint.trace (parseInbound events answers c).endpoint.trace := by
  refine Loop.run_simulates parseMeasure (parseStep_drops events answers) Reader.measure
    (Reader.step_drops events c.config)
    (fun state r => state.reader = r ∧ state.inlet.receiveStage = .header ∧ state.config = c.config)
    (fun state r => Idle r.endpoint.trace state.endpoint.trace) ?_ ?_ ⟨rfl, stage, rfl⟩
  · rintro state _ next ⟨rfl, stage, config⟩ round
    obtain ⟨waiting, part, hooks, rest, framed, rfl⟩ := Reader.step_again events round
    rw [← config] at framed
    obtain ⟨reached, reaches, taken, header, kept⟩ := parse_part events answers waiting stage framed
    exact ⟨reached, reaches, taken, header.1, kept.trans config⟩
  · rintro state _ result ⟨rfl, stage, config⟩ round
    obtain ⟨rfl, stops⟩ := Reader.step_done events round
    rw [← config] at stops
    exact parse_stops events answers stage stops

/-- The parser does with the inbound bytes what the reader does, and hands over nothing more. -/
theorem parseInbound_idle (answers : List SendResult) {c : Connection κ} (capped : c.Capped) :
    Idle (c.read events answers).endpoint.trace (parseInbound events answers c).endpoint.trace := by
  unfold read
  split
  next rests =>
    have stops : ¬ c.Waiting := fun waiting => not_or.mpr waiting rests
    rw [parseInbound, Loop.run_done _ _ (parseStep_resting events answers stops)]
    exact ⟨List.prefix_rfl, rfl⟩
  next live =>
    have waiting : c.Waiting := not_or.mp live
    split
    next stage =>
      have round := parseStep_waiting events answers waiting
      simp only [stage, handshakeStage] at round
      split
      next few =>
        rw [if_pos few] at round
        rw [parseInbound, Loop.run_done _ _ round]
        exact ⟨List.prefix_rfl, rfl⟩
      next enough =>
        rw [if_neg enough] at round
        have config := (handleHandshake_frame events answers c).2.1
        rw [parseInbound, Loop.run_again _ _ round]
        have header := parse_header_idle events answers
          (c := (c.handleHandshake events answers).expectHeader) rfl
        rw [← config]
        exact header
    next stage => exact parse_header_idle events answers stage
    next stage =>
      have at_ : c.AtData := ⟨stage, capped.pendingData, (capped.data stage).1⟩
      cases framed : c.framedData with
      | short =>
        have round := parseStep_data_short events answers waiting at_ framed
        unfold framedData at framed
        rw [framed, parseInbound, Loop.run_done _ _ round]
        exact ⟨List.prefix_rfl, rfl⟩
      -- Only a header is refused.
      | refused =>
        unfold framedData frameData at framed
        split at framed <;> cases framed
      | part part hooks rest =>
        obtain ⟨next, round, taken, header, config⟩ := parseStep_data_part events answers waiting at_ framed
        unfold framedData at framed
        rw [framed, parseInbound, Loop.run_again _ _ round]
        dsimp only
        rw [← taken, ← config]
        exact parse_header_idle events answers header.1

end Connection

end Slopline.Net
