import ThrottleVpn.Tun2Socks.Datagrams
import ThrottleVpn.Tun2Socks.Shaping

/-! Debt of the two buckets over runs of the engine.

The download handlers sleep at most 5 ms after a charge, the upload handlers at
most 50 ms. A cap is enforced when one such sleep earns at least one MTU: from
300000 bytes per second on for the download, from 30000 for the upload. Below
that the debt grows with every full packet.
-/

set_option autoImplicit false

namespace ThrottleVpn.Tun2Socks

open Foundation Limiter RateLimiter

namespace Engine

def gotData : RecvResult → Bool
  | .bytes (_ :: _) => true
  | _ => false

/-- The refill products of the download handlers fit, and no rate is changed. -/
def DownloadFits (engine : Engine) : Input → Prop
  | .socketReady fd events replies => engine.reads fd events = true →
    engine.dlLimiter.RefillFits (engine.clock + replies.availableDelay) ∧
    (gotData replies.recv = true →
      (engine.readSize replies.availableDelay).1.dlLimiter.RefillFits
        ((engine.readSize replies.availableDelay).1.clock + replies.consumeDelay))
  | .setRates _ _ => False
  | .tunReadable _ _ | .cleanup _ => True

/-- The refill product of the upload handlers fits, packets are within the MTU of
the service, and no rate is changed. -/
def UploadFits (engine : Engine) : Input → Prop
  | .tunReadable queued replies => queued.length ≤ 1500 ∧
    (charges queued = true → engine.ulLimiter.RefillFits (engine.clock + replies.delay))
  | .setRates _ _ => False
  | .socketReady _ _ _ | .cleanup _ => True

instance (engine : Engine) : (input : Input) → Decidable (engine.DownloadFits input)
  | .socketReady _ _ _ => inferInstanceAs (Decidable (_ → _ ∧ (_ → _)))
  | .setRates _ _ => inferInstanceAs (Decidable False)
  | .tunReadable _ _ | .cleanup _ => inferInstanceAs (Decidable True)

instance (engine : Engine) : (input : Input) → Decidable (engine.UploadFits input)
  | .tunReadable _ _ => inferInstanceAs (Decidable (_ ∧ (_ → _)))
  | .setRates _ _ => inferInstanceAs (Decidable False)
  | .socketReady _ _ _ | .cleanup _ => inferInstanceAs (Decidable True)

theorem min_le_pacingPause (wait : Int) : min wait 5000 ≤ pacingPause wait ∧ 0 ≤ pacingPause wait := by
  unfold pacingPause
  split
  · omega
  · split
    · split <;> omega
    · omega

section
variable {engine : Engine} {rate : Int}

theorem readSize_paced (paced : engine.dlLimiter.Paced engine.clock) (delay : Nat)
    (fits : engine.dlLimiter.RefillFits (engine.clock + delay)) :
    let sized := engine.readSize delay
    sized.1.dlLimiter.Paced sized.1.clock ∧ sized.1.dlLimiter.ratePerSec = engine.dlLimiter.ratePerSec ∧
      ((sized.2 : Int) ≤ 1500 ∨ (sized.2 : Int) ≤ sized.1.dlLimiter.tokens) := by
  have le : engine.clock ≤ engine.clock + delay := by omega
  have refilled := paced.refill le fits
  unfold readSize maxPacketSize
  rw [if_pos paced.ratePos]
  refine ⟨refilled, refill_ratePerSec .., ?_⟩
  unfold available
  dsimp only
  split
  · right
    omega
  · split
    · left
      exact le_rfl
    · right
      omega

theorem chargeDownload_paced (paced : engine.dlLimiter.Paced engine.clock)
    (enforceable : Enforceable 5000 engine.dlLimiter.ratePerSec) {delay count : Nat} (pos : 1 ≤ count)
    (covered : (count : Int) ≤ 1500 ∨ (count : Int) ≤ engine.dlLimiter.tokens)
    (fits : engine.dlLimiter.RefillFits (engine.clock + delay)) :
    (engine.chargeDownload delay count).1.dlLimiter.Paced (engine.chargeDownload delay count).1.clock ∧
      (engine.chargeDownload delay count).1.dlLimiter.ratePerSec = engine.dlLimiter.ratePerSec := by
  unfold chargeDownload
  dsimp only
  refine ⟨?_, consume_ratePerSec ..⟩
  have pause := min_le_pacingPause
    (engine.dlLimiter.consume wrap (engine.clock + delay) count (count ≤ smallPktThreshold)).2
  refine paced.consume (by omega) fits enforceable (by decide) (by omega) covered ?_ ?_ <;> omega

theorem chargeUpload_paced (paced : engine.ulLimiter.Paced engine.clock)
    (enforceable : Enforceable 50000 engine.ulLimiter.ratePerSec) {delay count : Nat} (pos : 1 ≤ count)
    (small : count ≤ 1500) (fits : engine.ulLimiter.RefillFits (engine.clock + delay)) :
    (engine.chargeUpload delay count).1.ulLimiter.Paced (engine.chargeUpload delay count).1.clock ∧
      (engine.chargeUpload delay count).1.ulLimiter.ratePerSec = engine.ulLimiter.ratePerSec := by
  unfold chargeUpload
  dsimp only
  refine ⟨?_, consume_ratePerSec ..⟩
  refine paced.consume (by omega) fits enforceable (by decide) (by omega) (.inl (by omega)) ?_ ?_
  · split <;> omega
  · split <;> omega

/-! ### Clocks and rates -/

theorem clock_le_chargeUpload (delay count : Nat) :
    engine.clock ≤ (engine.chargeUpload delay count).1.clock := by
  unfold chargeUpload
  dsimp only
  split <;> omega

theorem clock_le_chargeDownload (delay count : Nat) :
    engine.clock ≤ (engine.chargeDownload delay count).1.clock := by
  unfold chargeDownload
  dsimp only
  have pause := min_le_pacingPause
    (engine.dlLimiter.consume wrap (engine.clock + delay) count (count ≤ smallPktThreshold)).2
  omega

theorem clock_le_readSize (delay : Nat) : engine.clock ≤ (engine.readSize delay).1.clock := by
  unfold readSize
  split
  · change engine.clock ≤ engine.clock + delay
    omega
  · exact le_rfl

theorem meters_eq {first second : Engine} (same : first.meters = second.meters) :
    first.ulLimiter = second.ulLimiter ∧ first.dlLimiter = second.dlLimiter ∧
      first.clock = second.clock := by
  simpa only [meters, Prod.mk.injEq] using same

theorem download_paced_next (paced : engine.dlLimiter.Paced engine.clock)
    (sameRate : engine.dlLimiter.ratePerSec = rate) (enforceable : Enforceable 5000 rate)
    (input : Input) (fits : engine.DownloadFits input) :
    (engine.next input).dlLimiter.Paced (engine.next input).clock ∧
      (engine.next input).dlLimiter.ratePerSec = rate := by
  subst sameRate
  cases input with
  | tunReadable queued replies =>
    have outcome := handleTunReadable_meters engine replies queued
    change (engine.handleTunReadable replies queued).1.dlLimiter.Paced
      (engine.handleTunReadable replies queued).1.clock ∧
      (engine.handleTunReadable replies queued).1.dlLimiter.ratePerSec = _
    split at outcome
    · obtain ⟨-, sameDl, sameClock⟩ := meters_eq outcome
      rw [sameDl, sameClock, chargeUpload_dlLimiter]
      exact ⟨paced.later (clock_le_chargeUpload ..), rfl⟩
    · obtain ⟨-, sameDl, sameClock⟩ := meters_eq outcome
      rw [sameDl, sameClock]
      exact ⟨paced, rfl⟩
  | socketReady fd events replies =>
    rw [next_socketReady]
    rcases handleSocketEvent_meters engine fd events replies with ⟨read, outcome⟩ | outcome
    · obtain ⟨sizeFits, chargeFits⟩ := fits read
      -- the read is sized by the bucket, so that its charge is covered
      obtain ⟨sized, kept, covered⟩ := readSize_paced paced replies.availableDelay sizeFits
      rcases outcome with outcome | ⟨queued, recv, nonempty, pos, le, outcome⟩
      · obtain ⟨-, sameDl, sameClock⟩ := meters_eq outcome
        rw [sameDl, sameClock]
        exact ⟨sized, kept⟩
      · obtain ⟨-, sameDl, sameClock⟩ := meters_eq outcome
        rw [← kept] at enforceable
        have got : gotData replies.recv = true := by
          rw [recv]
          cases queued with
          | nil => exact absurd rfl nonempty
          | cons byte rest => rfl
        obtain ⟨charged, sameRate⟩ := chargeDownload_paced sized enforceable pos (by omega) (chargeFits got)
        rw [sameDl, sameClock]
        exact ⟨charged, sameRate.trans kept⟩
    · obtain ⟨-, sameDl, sameClock⟩ := meters_eq outcome
      rw [sameDl, sameClock]
      exact ⟨paced, rfl⟩
  | cleanup now => exact ⟨paced, rfl⟩
  | setRates dlBps ulBps => exact fits.elim

theorem charges_pos {queued : List UInt8} (charged : charges queued = true) : 1 ≤ queued.length := by
  cases queued with
  | nil => cases charged
  | cons byte rest => exact Nat.succ_pos _

theorem upload_paced_next (paced : engine.ulLimiter.Paced engine.clock)
    (sameRate : engine.ulLimiter.ratePerSec = rate) (enforceable : Enforceable 50000 rate)
    (input : Input) (fits : engine.UploadFits input) :
    (engine.next input).ulLimiter.Paced (engine.next input).clock ∧
      (engine.next input).ulLimiter.ratePerSec = rate := by
  subst sameRate
  cases input with
  | tunReadable queued replies =>
    obtain ⟨small, chargeFits⟩ := fits
    have outcome := handleTunReadable_meters engine replies queued
    change (engine.handleTunReadable replies queued).1.ulLimiter.Paced
      (engine.handleTunReadable replies queued).1.clock ∧
      (engine.handleTunReadable replies queued).1.ulLimiter.ratePerSec = _
    split at outcome
    next charged =>
      -- nothing sizes the read from the device: the packet is charged as it came
      obtain ⟨sameUl, -, sameClock⟩ := meters_eq outcome
      have whole : queued.take maxPacketSize = queued :=
        List.take_of_length_le (small.trans (by decide))
      rw [whole] at sameUl sameClock
      rw [sameUl, sameClock]
      exact chargeUpload_paced paced enforceable (charges_pos charged) small (chargeFits charged)
    next =>
      obtain ⟨sameUl, -, sameClock⟩ := meters_eq outcome
      rw [sameUl, sameClock]
      exact ⟨paced, rfl⟩
  | socketReady fd events replies =>
    have sized : engine.clock ≤ _ := clock_le_readSize replies.availableDelay
    rw [next_socketReady]
    rcases handleSocketEvent_meters engine fd events replies with ⟨-, outcome⟩ | outcome
    · rcases outcome with outcome | ⟨queued, -, -, -, -, outcome⟩
      · obtain ⟨sameUl, -, sameClock⟩ := meters_eq outcome
        rw [sameUl, sameClock, readSize_ulLimiter]
        exact ⟨paced.later sized, rfl⟩
      · obtain ⟨sameUl, -, sameClock⟩ := meters_eq outcome
        rw [sameUl, sameClock, chargeDownload_ulLimiter, readSize_ulLimiter]
        exact ⟨paced.later (sized.trans (clock_le_chargeDownload ..)), rfl⟩
    · obtain ⟨sameUl, -, sameClock⟩ := meters_eq outcome
      rw [sameUl, sameClock]
      exact ⟨paced, rfl⟩
  | cleanup now => exact ⟨paced, rfl⟩
  | setRates dlBps ulBps => exact fits.elim

end

/-- A download bucket that starts full at a rate is never more than an MTU and
5 ms of the rate in debt, whatever is received. -/
def DownloadDebtBounded (rate : Int) : Prop :=
  ∀ (engine : Engine) (start : Int) (inputs : List Input), engine.dlLimiter = .init rate start →
    Fits start → start ≤ engine.clock → Admits Engine.next DownloadFits engine inputs →
    -(inputs.foldl Engine.next engine).dlLimiter.tokens ≤ 1500 + rate / 200

/-- From 300000 bytes per second on the download cap is enforced in every run. -/
theorem download_debt_bounded {rate : Int} (low : 300000 ≤ rate) (high : rate ≤ 4611686017677500) :
    DownloadDebtBounded rate := by
  intro engine start inputs fresh startFits started admits
  have enforceable : Enforceable 5000 rate := ⟨by omega, high⟩
  have initial := (paced_init (show 0 < rate by omega) high startFits).later started
  rw [← fresh] at initial
  have sameRate : engine.dlLimiter.ratePerSec = rate := by rw [fresh]; rfl
  obtain ⟨paced, kept⟩ := admits.invariant
    (fun engine => engine.dlLimiter.Paced engine.clock ∧ engine.dlLimiter.ratePerSec = rate)
    (fun _ input holds fits => download_paced_next holds.1 holds.2 enforceable input fits)
    ⟨initial, sameRate⟩
  have debt := paced.debt
  have carry := carried_le (show 0 < rate by omega) enforceable (by decide)
  rw [kept] at debt
  omega

def sampleDownloads : List Input :=
  .tunReadable sampleDatagram (.smooth 7 0) ::
    List.replicate 3 (.socketReady 7 ⟨true, false⟩ (.smooth (List.replicate 2500 0)))

theorem download_debt_bounded_sample :
    -(sampleDownloads.foldl Engine.next
      { Engine.start 3 1500 0 0 with dlLimiter := .init 300000 0 }).dlLimiter.tokens ≤ 1500 + 300000 / 200 :=
  download_debt_bounded (by decide) (by decide) _ 0 sampleDownloads rfl (by decide) (by decide)
    (by decide +kernel)

/-- At 1 Mbit/s a sleep of 5 ms earns 625 bytes while 1500 are read. -/
theorem download_debt_exceeds_cap : ¬∀ rate, 0 < rate → DownloadDebtBounded rate := by
  intro bounded
  have debt := bounded 125000 (by decide) { Engine.start 3 1500 0 0 with dlLimiter := .init 125000 0 } 0
    sampleDownloads rfl (by decide) (by decide) (by decide +kernel)
  exact absurd debt (by decide +kernel)

/-- An upload bucket that starts full at a rate is never more than an MTU and
50 ms of the rate in debt, whatever packets are read. -/
def UploadDebtBounded (rate : Int) : Prop :=
  ∀ (engine : Engine) (start : Int) (inputs : List Input), engine.ulLimiter = .init rate start →
    Fits start → start ≤ engine.clock → Admits Engine.next UploadFits engine inputs →
    -(inputs.foldl Engine.next engine).ulLimiter.tokens ≤ 1500 + rate / 20

/-- From 30000 bytes per second on the upload cap is enforced in every run. -/
theorem upload_debt_bounded {rate : Int} (low : 30000 ≤ rate) (high : rate ≤ 4611686017677500) :
    UploadDebtBounded rate := by
  intro engine start inputs fresh startFits started admits
  have enforceable : Enforceable 50000 rate := ⟨by omega, high⟩
  have initial := (paced_init (show 0 < rate by omega) high startFits).later started
  rw [← fresh] at initial
  have sameRate : engine.ulLimiter.ratePerSec = rate := by rw [fresh]; rfl
  obtain ⟨paced, kept⟩ := admits.invariant
    (fun engine => engine.ulLimiter.Paced engine.clock ∧ engine.ulLimiter.ratePerSec = rate)
    (fun _ input holds fits => upload_paced_next holds.1 holds.2 enforceable input fits)
    ⟨initial, sameRate⟩
  have debt := paced.debt
  have carry := carried_le (show 0 < rate by omega) enforceable (by decide)
  rw [kept] at debt
  omega

def sampleFullPacket : List UInt8 :=
  Packet.bytes
    { ip := .v4
        { verIhl := 0x45, tos := 0, totalLen := htons 1500, ident := 0, flagsFrag := 0, ttl := 64
          protocol := 17, hdrCsum := 0, srcAddr := 0x0200000A, dstAddr := 0x01010101 }
      transport := .udp { srcPort := htons 40000, dstPort := htons 443, length := htons 1480, csum := 0 }
      payload := List.replicate 1472 0 }

def sampleUploads : List Input := List.replicate 3 (.tunReadable sampleFullPacket (.smooth 7 0))

theorem upload_debt_bounded_sample :
    -(sampleUploads.foldl Engine.next
      { Engine.start 3 1500 0 0 with ulLimiter := .init 30000 0 }).ulLimiter.tokens ≤ 1500 + 30000 / 20 :=
  upload_debt_bounded (by decide) (by decide) _ 0 sampleUploads rfl (by decide) (by decide)
    (by decide +kernel)

/-- At 100 kbit/s a sleep of 50 ms earns 625 bytes while 1500 are sent. -/
theorem upload_debt_exceeds_cap : ¬∀ rate, 0 < rate → UploadDebtBounded rate := by
  intro bounded
  have debt := bounded 12500 (by decide) { Engine.start 3 1500 0 0 with ulLimiter := .init 12500 0 } 0
    sampleUploads rfl (by decide) (by decide) (by decide +kernel)
  exact absurd debt (by decide +kernel)

end Engine

end ThrottleVpn.Tun2Socks
