import Mathlib.Algebra.BigOperators.Ring.List
import ThrottleVpn.Foundation.Regulators
import ThrottleVpn.Limiter.Solvency
import ThrottleVpn.Tun2Socks.Caps
import ThrottleVpn.Tun2Socks.Metering

/-! The caps in force: what goes through the engine in any stretch of a run.

Rates change whenever the user or the service sets them, also while a bucket is in
debt. From then to the next change the traffic keeps to the rate, whatever happened
before and however sockets, packets and sleeps follow each other.
-/

set_option autoImplicit false

namespace ThrottleVpn.Tun2Socks

open Foundation Limiter RateLimiter

def Effect.charge : Effect → Int
  | .recv _ data => if data = [] then 0 else cost data.length (data.length ≤ smallPktThreshold)
  | _ => 0

def charged (effects : List Effect) : Int := (effects.map Effect.charge).sum

def Input.charge (input : Input) : Int :=
  if input.uploaded = 0 then 0 else cost input.uploaded (input.uploaded ≤ smallPktThreshold)

theorem charged_cons (effect : Effect) (rest : List Effect) :
    charged (effect :: rest) = effect.charge + charged rest := by simp [charged]

@[simp] theorem charged_append (first second : List Effect) :
    charged (first ++ second) = charged first + charged second := by simp [charged]

theorem Effect.Bare.charge {effect : Effect} (bare : effect.Bare) : effect.charge = 0 := by
  cases effect with
  | recv fd data => exact if_pos (List.eq_nil_of_length_eq_zero bare.1)
  | _ => rfl

theorem charged_bare {effects : List Effect} (bare : ∀ effect ∈ effects, effect.Bare) : charged effects = 0 := by
  apply List.sum_eq_zero
  intro amount member
  obtain ⟨effect, inside, rfl⟩ := List.mem_map.mp member
  exact (bare effect inside).charge

theorem le_two_cost (count : Nat) (isSmall : Bool) : (count : Int) ≤ 2 * cost count isSmall := by
  unfold cost
  rw [Int.tdiv_eq_ediv_of_nonneg (by omega)]
  cases isSmall <;> simp <;> omega

theorem Effect.downloaded_le (effect : Effect) : (effect.downloaded : Int) ≤ 2 * effect.charge := by
  cases effect with
  | recv fd data =>
    by_cases empty : data = []
    · rw [empty]
      exact le_rfl
    · have charge : (recv fd data).charge = cost data.length (data.length ≤ smallPktThreshold) := if_neg empty
      rw [charge]
      exact le_two_cost _ _
  | _ => exact le_rfl

theorem downloaded_le (effects : List Effect) : (downloaded effects : Int) ≤ 2 * charged effects := by
  induction effects with
  | nil => rfl
  | cons effect rest ih =>
    have here := effect.downloaded_le
    rw [downloaded_cons, charged_cons]
    push_cast
    omega

theorem Input.uploaded_le (input : Input) : (input.uploaded : Int) ≤ 2 * input.charge := by
  unfold Input.charge
  split
  next none =>
    rw [none]
    rfl
  next => exact le_two_cost _ _

namespace Engine

/-- The refill products fit, as for `DownloadFits`, and a rate that is set can be paid
back by the download handlers: 300000 to 10^15 bytes per second. -/
def DownloadPayable (engine : Engine) : Input → Prop
  | .setRates dlBps _ => Payable 5000 dlBps
  | input => engine.DownloadFits input

/-- Likewise for the upload: 30000 to 10^14 bytes per second. -/
def UploadPayable (engine : Engine) : Input → Prop
  | .setRates _ ulBps => Payable 50000 ulBps
  | input => engine.UploadFits input

instance (engine : Engine) : (input : Input) → Decidable (engine.DownloadPayable input)
  | .setRates _ _ => inferInstanceAs (Decidable (Payable _ _))
  | .tunReadable queued replies => inferInstanceAs (Decidable (engine.DownloadFits (.tunReadable queued replies)))
  | .socketReady fd events replies =>
    inferInstanceAs (Decidable (engine.DownloadFits (.socketReady fd events replies)))
  | .cleanup now => inferInstanceAs (Decidable (engine.DownloadFits (.cleanup now)))

instance (engine : Engine) : (input : Input) → Decidable (engine.UploadPayable input)
  | .setRates _ _ => inferInstanceAs (Decidable (Payable _ _))
  | .tunReadable queued replies => inferInstanceAs (Decidable (engine.UploadFits (.tunReadable queued replies)))
  | .socketReady fd events replies =>
    inferInstanceAs (Decidable (engine.UploadFits (.socketReady fd events replies)))
  | .cleanup now => inferInstanceAs (Decidable (engine.UploadFits (.cleanup now)))

/-! ### What a read is charged -/

/-- The outcomes of a sized read: nothing received and nothing charged, or what was
received is charged. -/
def ReadCharges (engine : Engine) (replies : SocketReplies) (out : Engine × List Effect) : Prop :=
  (out.1.meters = (engine.readSize replies.availableDelay).1.meters ∧ charged out.2 = 0) ∨
  ∃ count : Nat, gotData replies.recv = true ∧ 1 ≤ count ∧ count ≤ (engine.readSize replies.availableDelay).2 ∧
    out.1.meters =
      ((engine.readSize replies.availableDelay).1.chargeDownload replies.consumeDelay count).1.meters ∧
    charged out.2 = cost count (count ≤ smallPktThreshold)

theorem gotData_of_nonempty {queued : List UInt8} (nonempty : queued ≠ []) :
    gotData (.bytes queued) = true := by
  cases queued with
  | nil => exact absurd rfl nonempty
  | cons byte rest => rfl

theorem charged_read {engine : Engine} {delay fd : Nat} {data : List UInt8} (nonempty : data ≠ [])
    (packets : List Packet) :
    charged (.recv fd data :: (engine.chargeDownload delay data.length).2 ++ [.tunWrite packets]) =
      cost data.length (data.length ≤ smallPktThreshold) := by
  have pauses := charged_bare fun effect member =>
    (chargeDownload_idle engine delay data.length effect member).bare
  have written : charged [.tunWrite packets] = 0 := rfl
  rw [List.cons_append, charged_cons, charged_append, pauses, written, Int.add_zero, Int.add_zero]
  exact if_neg nonempty

theorem readTcp_charges (engine : Engine) (session : TcpSession) (replies : SocketReplies) :
    engine.ReadCharges replies (engine.readTcp session replies) := by
  have empty : (Effect.recv session.sockFd []).Bare := ⟨rfl, rfl⟩
  unfold readTcp ReadCharges
  dsimp only
  cases replies.recv with
  | bytes queued =>
    dsimp only
    split
    · refine .inl ⟨settle_meters .., charged_bare (List.forall_mem_cons.mpr ⟨empty, ?_⟩)⟩
      exact settle_bare _ session .remoteClosed (by simp)
    next some =>
      obtain ⟨nonempty, pos, le⟩ := count_of_nonempty some
      refine .inr ⟨_, gotData_of_nonempty nonempty, pos, le, settle_meters .., ?_⟩
      rw [settle_effects]
      exact charged_read some _
  | wouldBlock => exact .inl ⟨rfl, rfl⟩
  | failed => exact .inl ⟨settle_meters .., charged_bare (settle_bare _ session .recvFailed (by simp))⟩

theorem readUdp_charges (engine : Engine) (session : UdpSession) (replies : SocketReplies) :
    engine.ReadCharges replies (engine.readUdp session replies) := by
  unfold readUdp ReadCharges
  dsimp only
  cases replies.recv with
  | bytes queued =>
    dsimp only
    split
    · exact .inl ⟨rfl, rfl⟩
    next some =>
      obtain ⟨nonempty, pos, le⟩ := count_of_nonempty some
      exact .inr ⟨_, gotData_of_nonempty nonempty, pos, le, rfl, charged_read some _⟩
  | wouldBlock => exact .inl ⟨rfl, rfl⟩
  | failed => exact .inl ⟨rfl, rfl⟩

theorem handleSocketEvent_charges (engine : Engine) (fd : Nat) (events : EpollEvents) (replies : SocketReplies) :
    engine.reads fd events = true ∧ engine.ReadCharges replies (engine.handleSocketEvent fd events replies) ∨
      (engine.handleSocketEvent fd events replies).1.meters = engine.meters ∧
        charged (engine.handleSocketEvent fd events replies).2 = 0 := by
  unfold handleSocketEvent reads
  cases engine.tcpFindByFd fd with
  | some session =>
    dsimp only
    by_cases completes : session.state = .synSent ∧ events.output = true
    · have handled : session.handle engine.mtu (.writable replies.soError replies.send) =
          session.connectCompletes engine.mtu replies.soError replies.send := if_pos completes.1
      rw [if_pos completes, ← handled]
      exact .inr ⟨settle_meters .., charged_bare (engine.settle_bare session (.writable ..) (by simp))⟩
    · rw [if_neg completes]
      by_cases readable : events.input = true
      · rw [if_pos readable]
        exact .inl ⟨by simpa [readable, ← imp_iff_not_or] using completes, readTcp_charges ..⟩
      · rw [if_neg readable]
        exact .inr ⟨rfl, rfl⟩
  | none =>
    cases engine.udpFindByFd fd with
    | some session =>
      dsimp only
      by_cases readable : events.input = true
      · rw [if_pos readable]
        exact .inl ⟨by simp [readable], readUdp_charges ..⟩
      · rw [if_neg readable]
        exact .inr ⟨rfl, rfl⟩
    | none => exact .inr ⟨rfl, rfl⟩

theorem charges_eq (queued : List UInt8) :
    charges queued = (decode (queued.take maxPacketSize)).toOption.isSome := by
  unfold charges decode
  dsimp only
  obtain ⟨parsed, same⟩ : ∃ parsed, parseIp (queued.take maxPacketSize) = parsed := ⟨_, rfl⟩
  simp only [same]
  cases parsed with
  | error reject => rfl
  | ok ip =>
    dsimp only [bind, Except.bind]
    by_cases tcp : ip.proto = 6
    · simp only [if_pos tcp]
      cases parseTcp ((queued.take maxPacketSize).drop ip.hdrLen) <;> rfl
    · simp only [if_neg tcp]
      by_cases udp : ip.proto = 17
      · simp only [if_pos udp]
        cases parseUdp ((queued.take maxPacketSize).drop ip.hdrLen) <;> rfl
      · simp only [if_neg udp]
        rfl

theorem uploaded_eq (queued : List UInt8) (replies : TunReplies) :
    (Input.tunReadable queued replies).uploaded =
      if charges queued then (queued.take maxPacketSize).length else 0 := by
  rw [charges_eq]
  rfl

/-! ### Steps -/

section
variable {engine : Engine}

theorem readSize_solvent (solvent : Solvent 5000 engine.dlLimiter engine.clock) (delay : Nat)
    (fits : engine.dlLimiter.RefillFits (engine.clock + delay)) :
    let sized := engine.readSize delay
    Solvent 5000 sized.1.dlLimiter sized.1.clock ∧
      Spends engine.dlLimiter engine.clock sized.1.dlLimiter sized.1.clock 0 1 ∧
      ((sized.2 : Int) ≤ 1500 ∨ (sized.2 : Int) ≤ sized.1.dlLimiter.tokens) := by
  have le : engine.clock ≤ engine.clock + delay := by omega
  have refilled := solvent.refill (by decide) le fits
  have looks := solvent.looks (by decide) le fits
  unfold readSize maxPacketSize
  rw [if_pos solvent.payable.1]
  refine ⟨refilled, looks, ?_⟩
  unfold available
  dsimp only
  split
  · right
    omega
  · split
    · left
      exact le_rfl
    · right
      omega

theorem chargeDownload_solvent (solvent : Solvent 5000 engine.dlLimiter engine.clock) {delay count : Nat}
    (pos : 1 ≤ count) (covered : (count : Int) ≤ 1500 ∨ (count : Int) ≤ engine.dlLimiter.tokens)
    (fits : engine.dlLimiter.RefillFits (engine.clock + delay)) :
    let paid := (engine.chargeDownload delay count).1
    Solvent 5000 paid.dlLimiter paid.clock ∧
      Spends engine.dlLimiter engine.clock paid.dlLimiter paid.clock
        (cost count (count ≤ smallPktThreshold)) 1 := by
  unfold chargeDownload
  have pause := min_le_pacingPause
    (engine.dlLimiter.consume wrap (engine.clock + delay) count (count ≤ smallPktThreshold)).2
  dsimp only
  refine solvent.consume (by decide) (by decide) (by omega) fits (by omega) covered ?_ ?_ <;> omega

theorem chargeUpload_solvent (solvent : Solvent 50000 engine.ulLimiter engine.clock) {delay count : Nat}
    (pos : 1 ≤ count) (small : count ≤ 1500) (fits : engine.ulLimiter.RefillFits (engine.clock + delay)) :
    let paid := (engine.chargeUpload delay count).1
    Solvent 50000 paid.ulLimiter paid.clock ∧
      Spends engine.ulLimiter engine.clock paid.ulLimiter paid.clock
        (cost count (count ≤ smallPktThreshold)) 1 := by
  unfold chargeUpload
  dsimp only
  refine solvent.consume (by decide) (by decide) (by omega) fits (by omega) (.inl (by omega)) ?_ ?_
  · split <;> omega
  · split <;> omega

/-- Whatever a step receives from sockets comes off the level of the download bucket. -/
theorem download_next (solvent : Solvent 5000 engine.dlLimiter engine.clock) (input : Input)
    (fits : engine.DownloadFits input) :
    Solvent 5000 (engine.next input).dlLimiter (engine.next input).clock ∧
      Spends engine.dlLimiter engine.clock (engine.next input).dlLimiter (engine.next input).clock
        (charged (engine.step input).2) 2 := by
  have ratePos := solvent.payable.1
  have still := (solvent.waits le_rfl).more ratePos (show (0 : Int) ≤ 2 by decide)
  cases input with
  | tunReadable queued replies =>
    have outcome := handleTunReadable_meters engine replies queued
    have nothing : charged (engine.step (.tunReadable queued replies)).2 = 0 :=
      charged_bare (engine.handleTunReadable_bare queued replies)
    rw [nothing]
    change Solvent 5000 (engine.handleTunReadable replies queued).1.dlLimiter
      (engine.handleTunReadable replies queued).1.clock ∧ Spends engine.dlLimiter engine.clock
      (engine.handleTunReadable replies queued).1.dlLimiter (engine.handleTunReadable replies queued).1.clock 0 2
    split at outcome
    -- a packet from the device: time goes by while it is charged to the other bucket
    · obtain ⟨-, sameDl, sameClock⟩ := meters_eq outcome
      have slept := engine.clock_le_chargeUpload replies.delay (queued.take maxPacketSize).length
      rw [sameDl, sameClock, chargeUpload_dlLimiter]
      exact ⟨solvent.later slept, (solvent.waits slept).more ratePos (by decide)⟩
    · obtain ⟨-, sameDl, sameClock⟩ := meters_eq outcome
      rw [sameDl, sameClock]
      exact ⟨solvent, still⟩
  | socketReady fd events replies =>
    have effects : (engine.step (.socketReady fd events replies)).2 =
      (engine.handleSocketEvent fd events replies).2 := rfl
    rw [next_socketReady, effects]
    rcases handleSocketEvent_charges engine fd events replies with ⟨read, outcome⟩ | ⟨outcome, nothing⟩
    · obtain ⟨sizeFits, chargeFits⟩ := fits read
      -- two refills: one sizes the read, one is part of its charge
      obtain ⟨sized, looks, covered⟩ := readSize_solvent solvent replies.availableDelay sizeFits
      rcases outcome with ⟨outcome, nothing⟩ | ⟨count, got, pos, le, outcome, spent⟩
      · obtain ⟨-, sameDl, sameClock⟩ := meters_eq outcome
        rw [sameDl, sameClock, nothing]
        exact ⟨sized, looks.more ratePos (by decide)⟩
      · obtain ⟨-, sameDl, sameClock⟩ := meters_eq outcome
        obtain ⟨paid, spends⟩ := chargeDownload_solvent sized pos (by omega) (chargeFits got)
        have both := looks.trans spends
        rw [sameDl, sameClock, spent]
        rw [Int.zero_add] at both
        exact ⟨paid, both⟩
    · obtain ⟨-, sameDl, sameClock⟩ := meters_eq outcome
      rw [sameDl, sameClock, nothing]
      exact ⟨solvent, still⟩
  | cleanup now =>
    have nothing : charged (engine.step (.cleanup now)).2 = 0 := by
      change charged (engine.cleanup now).2 = 0
      rw [cleanup_effects]
      exact charged_bare (closings_bare _)
    rw [nothing]
    exact ⟨solvent, still⟩
  | setRates dlBps ulBps => exact fits.elim

theorem upload_next (solvent : Solvent 50000 engine.ulLimiter engine.clock) (input : Input)
    (fits : engine.UploadFits input) :
    Solvent 50000 (engine.next input).ulLimiter (engine.next input).clock ∧
      Spends engine.ulLimiter engine.clock (engine.next input).ulLimiter
        (engine.next input).clock input.charge 1 := by
  have ratePos := solvent.payable.1
  have still := (solvent.waits le_rfl).more ratePos (show (0 : Int) ≤ 1 by decide)
  cases input with
  | tunReadable queued replies =>
    obtain ⟨small, chargeFits⟩ := fits
    have outcome := handleTunReadable_meters engine replies queued
    change Solvent 50000 (engine.handleTunReadable replies queued).1.ulLimiter
      (engine.handleTunReadable replies queued).1.clock ∧ Spends engine.ulLimiter engine.clock
      (engine.handleTunReadable replies queued).1.ulLimiter (engine.handleTunReadable replies queued).1.clock _ 1
    unfold Input.charge
    rw [uploaded_eq]
    -- nothing sizes the read from the device, so the MTU of the service is used
    have whole : queued.take maxPacketSize = queued := List.take_of_length_le (small.trans (by decide))
    rw [whole] at outcome ⊢
    split at outcome
    next accepted =>
      obtain ⟨sameUl, -, sameClock⟩ := meters_eq outcome
      have pos := charges_pos accepted
      rw [sameUl, sameClock, if_pos accepted, if_neg (by omega)]
      exact chargeUpload_solvent solvent pos small (chargeFits accepted)
    next dropped =>
      obtain ⟨sameUl, -, sameClock⟩ := meters_eq outcome
      rw [sameUl, sameClock, if_neg dropped, if_pos rfl]
      exact ⟨solvent, still⟩
  | socketReady fd events replies =>
    have sized : engine.clock ≤ _ := clock_le_readSize replies.availableDelay
    rw [next_socketReady]
    change Solvent 50000 (engine.handleSocketEvent fd events replies).1.ulLimiter
      (engine.handleSocketEvent fd events replies).1.clock ∧ Spends engine.ulLimiter engine.clock
      (engine.handleSocketEvent fd events replies).1.ulLimiter
      (engine.handleSocketEvent fd events replies).1.clock 0 1
    rcases handleSocketEvent_meters engine fd events replies with ⟨-, outcome⟩ | outcome
    · rcases outcome with outcome | ⟨queued, -, -, -, -, outcome⟩
      · obtain ⟨sameUl, -, sameClock⟩ := meters_eq outcome
        rw [sameUl, sameClock, readSize_ulLimiter]
        exact ⟨solvent.later sized, (solvent.waits sized).more ratePos (by decide)⟩
      · obtain ⟨sameUl, -, sameClock⟩ := meters_eq outcome
        have slept := sized.trans (clock_le_chargeDownload replies.consumeDelay
          (queued.take (engine.readSize replies.availableDelay).2).length)
        rw [sameUl, sameClock, chargeDownload_ulLimiter, readSize_ulLimiter]
        exact ⟨solvent.later slept, (solvent.waits slept).more ratePos (by decide)⟩
    · obtain ⟨sameUl, -, sameClock⟩ := meters_eq outcome
      rw [sameUl, sameClock]
      exact ⟨solvent, still⟩
  | cleanup now => exact ⟨solvent, still⟩
  | setRates dlBps ulBps => exact fits.elim

theorem download_solvent_next (solvent : Solvent 5000 engine.dlLimiter engine.clock) (input : Input)
    (payable : engine.DownloadPayable input) :
    Solvent 5000 (engine.next input).dlLimiter (engine.next input).clock := by
  cases input with
  | setRates dlBps ulBps => exact solvent.update payable
  | tunReadable queued replies => exact (download_next solvent (.tunReadable queued replies) payable).1
  | socketReady fd events replies => exact (download_next solvent (.socketReady fd events replies) payable).1
  | cleanup now => exact (download_next solvent (.cleanup now) payable).1

theorem upload_solvent_next (solvent : Solvent 50000 engine.ulLimiter engine.clock) (input : Input)
    (payable : engine.UploadPayable input) :
    Solvent 50000 (engine.next input).ulLimiter (engine.next input).clock := by
  cases input with
  | setRates dlBps ulBps => exact solvent.update payable
  | tunReadable queued replies => exact (upload_next solvent (.tunReadable queued replies) payable).1
  | socketReady fd events replies => exact (upload_next solvent (.socketReady fd events replies) payable).1
  | cleanup now => exact (upload_next solvent (.cleanup now) payable).1

end

/-! ### Runs -/

theorem level_le_ceiling {limiter : RateLimiter} {sleepCapUs clock rate : Int}
    (solvent : Solvent sleepCapUs limiter clock) (same : limiter.ratePerSec = rate) :
    limiter.level clock ≤ (burst rate + 1) * 1000000000 + rate := by
  have cap : limiter.level clock ≤ limiter.ceiling := min_le_left _ _
  have full := solvent.capacityEq
  unfold ceiling at cap
  rw [full, same] at cap
  exact cap

theorem carried_height {rate : Int} (ratePos : 0 < rate) :
    -carried rate * 1000000000 ≤ (burst rate + 1) * 1000000000 + rate := by
  have full := burst_ge rate
  unfold carried
  omega

theorem download_regulator {rate : Int} (ratePos : 0 < rate) :
    Regulator next DownloadFits
      (fun engine => Solvent 5000 engine.dlLimiter engine.clock ∧ engine.dlLimiter.ratePerSec = rate)
      Engine.clock (fun engine => engine.dlLimiter.level engine.clock)
      (fun engine input => charged (engine.step input).2 * 1000000000) rate (2 * rate)
      (-carried rate * 1000000000) ((burst rate + 1) * 1000000000 + rate) where
  preserved := by
    rintro engine input ⟨solvent, rfl⟩ fits
    obtain ⟨kept, spends⟩ := download_next solvent input fits
    exact ⟨kept, spends.rate⟩
  pays := by
    rintro engine input ⟨solvent, rfl⟩ fits
    exact (download_next solvent input fits).2.pays
  supported := by
    rintro engine input ⟨solvent, rfl⟩ fits
    exact (download_next solvent input fits).2.supported
  below := fun engine holds => level_le_ceiling holds.1 holds.2
  height := carried_height ratePos

theorem upload_regulator {rate : Int} (ratePos : 0 < rate) :
    Regulator next UploadFits
      (fun engine => Solvent 50000 engine.ulLimiter engine.clock ∧ engine.ulLimiter.ratePerSec = rate)
      Engine.clock (fun engine => engine.ulLimiter.level engine.clock)
      (fun _ input => input.charge * 1000000000) rate (1 * rate)
      (-carried rate * 1000000000) ((burst rate + 1) * 1000000000 + rate) where
  preserved := by
    rintro engine input ⟨solvent, rfl⟩ fits
    obtain ⟨kept, spends⟩ := upload_next solvent input fits
    exact ⟨kept, spends.rate⟩
  pays := by
    rintro engine input ⟨solvent, rfl⟩ fits
    exact (upload_next solvent input fits).2.pays
  supported := by
    rintro engine input ⟨solvent, rfl⟩ fits
    exact (upload_next solvent input fits).2.supported
  below := fun engine holds => level_le_ceiling holds.1 holds.2
  height := carried_height ratePos

theorem charged_calls (engine : Engine) (inputs : List Input) (unit : Int) :
    (trace next (fun engine input => charged (engine.step input).2 * unit) engine inputs).sum =
      charged (engine.calls inputs) * unit := by
  induction inputs generalizing engine with
  | nil => exact (Int.zero_mul unit).symm
  | cons input rest ih =>
    have lines : engine.calls (input :: rest) = (engine.step input).2 ++ (engine.next input).calls rest := rfl
    rw [trace, List.sum_cons, ih, lines, charged_append, Int.add_mul]

def uploadCharges (inputs : List Input) : Int := (inputs.map Input.charge).sum

theorem uploads_le (inputs : List Input) : (uploads inputs : Int) ≤ 2 * uploadCharges inputs := by
  induction inputs with
  | nil => rfl
  | cons input rest ih =>
    have here := input.uploaded_le
    have total : uploads (input :: rest) = input.uploaded + uploads rest := by simp [uploads]
    have charges : uploadCharges (input :: rest) = input.charge + uploadCharges rest := by simp [uploadCharges]
    rw [total, charges]
    push_cast
    omega

theorem carried_le_max (rate : Int) : carried rate ≤ max 1500 (rate / 500) := by
  unfold carried
  omega

/-- The upload cap in force, for the packets that are accepted from the device: here it is
one nanosecond an event and one more. -/
theorem uploads_keep_to_cap (tunFd : Nat) (mtu ulStart dlStart : Int) (startFits : Fits ulStart)
    (past stretch : List Input) (payable : Admits next UploadPayable (start tunFd mtu ulStart dlStart) past)
    (fits : Admits next UploadFits (past.foldl next (start tunFd mtu ulStart dlStart)) stretch) :
    let first := past.foldl next (start tunFd mtu ulStart dlStart)
    let last := stretch.foldl next first
    let rate := first.ulLimiter.ratePerSec
    uploadCharges stretch * 1000000000 ≤
        (max 1500 (rate / 50) + max 1500 (rate / 500) + 1) * 1000000000 +
          rate * (last.clock - first.clock + stretch.length + 1) ∧
      (uploads stretch : Int) ≤ 2 * uploadCharges stretch := by
  intro first last rate
  have began : Solvent 50000 (start tunFd mtu ulStart dlStart).ulLimiter (start tunFd mtu ulStart dlStart).clock :=
    (solvent_init (by decide) startFits).later (le_max_left _ _)
  have solvent := payable.invariant (fun engine => Solvent 50000 engine.ulLimiter engine.clock)
    (fun _ input holds payable => upload_solvent_next holds input payable) began
  have ratePos : 0 < rate := solvent.payable.1
  have spent := (upload_regulator ratePos).spent fits ⟨solvent, rfl⟩
  have carry := carried_le_max rate
  rw [trace_const, List.sum_map_mul_right, burst_eq_max ratePos.le] at spent
  refine ⟨?_, uploads_le _⟩
  change uploadCharges stretch * 1000000000 ≤ _ - _ + rate * (last.clock - first.clock) + _ at spent
  linarith [Int.mul_comm rate stretch.length]

theorem uploads_keep_to_cap_sample :
    let past : List Input := [.setRates 3000000 300000, .tunReadable sampleFullPacket (.smooth 7 0),
      .setRates 3000000 30000]
    let first := past.foldl next (start 3 1500 0 0)
    let last := sampleUploads.foldl next first
    let rate := first.ulLimiter.ratePerSec
    uploadCharges sampleUploads * 1000000000 ≤
        (max 1500 (rate / 50) + max 1500 (rate / 500) + 1) * 1000000000 +
          rate * (last.clock - first.clock + sampleUploads.length + 1) ∧
      (uploads sampleUploads : Int) ≤ 2 * uploadCharges sampleUploads :=
  uploads_keep_to_cap 3 1500 0 0 (by decide) _ _ (by decide +kernel) (by decide +kernel)

end Engine

end ThrottleVpn.Tun2Socks
