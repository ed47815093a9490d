import ThrottleVpn.Tun2Socks.Metering

/-! `TrafficShaper`: the throughput that the service shows.

Twice a second the monitor reads the byte counters of the running engine and shows what
was carried since it read them last. The engine goes on meanwhile, also between the
reading of one counter and that of the other.
-/

set_option autoImplicit false

namespace ThrottleVpn.Service

open Foundation Tun2Socks

structure LiveTrafficStats where
  uploadBytesPerSec : Int
  downloadBytesPerSec : Int
  totalUploadBytes : Int
  totalDownloadBytes : Int
  deriving DecidableEq, Repr

structure TrafficShaper where
  stats : LiveTrafficStats
  prevUl : Int
  prevDl : Int
  deriving DecidableEq, Repr

namespace TrafficShaper

def initial : TrafficShaper := ⟨⟨0, 0, 0, 0⟩, 0, 0⟩

def startMonitoring (shaper : TrafficShaper) (ul dl : Int) : TrafficShaper :=
  { shaper with prevUl := ul, prevDl := dl }

/-- A round of the monitor. The deltas are those of half a second. -/
def sample (shaper : TrafficShaper) (ul dl : Int) : TrafficShaper :=
  let ulDelta := wrap (ul - shaper.prevUl)
  let dlDelta := wrap (dl - shaper.prevDl)
  { stats := ⟨wrap (ulDelta * 2), wrap (dlDelta * 2), ul, dl⟩, prevUl := ul, prevDl := dl }

end TrafficShaper

/-- A step of the engine, or a call of `engine_get_stats` with what the engine does
between its two loads. -/
inductive MonitorEvent where
  | engine (input : Input)
  | startMonitoring (between : List Input)
  | sample (between : List Input)
  deriving DecidableEq, Repr

def MonitorEvent.inputs : MonitorEvent → List Input
  | .engine input => [input]
  | .startMonitoring between | .sample between => between

structure MonitoredEngine where
  engine : Tun2Socks.Engine
  shaper : TrafficShaper

namespace MonitoredEngine

def start (tunFd : Nat) (mtu ulStart dlStart : Int) : MonitoredEngine :=
  ⟨.start tunFd mtu ulStart dlStart, .initial⟩

def next (monitored : MonitoredEngine) (event : MonitorEvent) : MonitoredEngine :=
  let engine := event.inputs.foldl Tun2Socks.Engine.next monitored.engine
  match event with
  | .engine _ => { monitored with engine := engine }
  | .startMonitoring _ =>
    ⟨engine, monitored.shaper.startMonitoring monitored.engine.ulBytes engine.dlBytes⟩
  | .sample _ => ⟨engine, monitored.shaper.sample monitored.engine.ulBytes engine.dlBytes⟩

theorem next_engine (monitored : MonitoredEngine) (event : MonitorEvent) :
    (monitored.next event).engine = event.inputs.foldl Tun2Socks.Engine.next monitored.engine := by
  cases event <;> rfl

theorem run_engine (monitored : MonitoredEngine) (events : List MonitorEvent) :
    (events.foldl next monitored).engine =
      (events.flatMap MonitorEvent.inputs).foldl Tun2Socks.Engine.next monitored.engine := by
  induction events generalizing monitored with
  | nil => rfl
  | cons event rest ih => rw [List.foldl_cons, ih, next_engine, List.flatMap_cons, List.foldl_append]

theorem run_served (monitored : MonitoredEngine) (served : List Input) :
    (served.map MonitorEvent.engine).foldl next monitored =
      ⟨served.foldl Tun2Socks.Engine.next monitored.engine, monitored.shaper⟩ := by
  induction served generalizing monitored with
  | nil => rfl
  | cons input rest ih =>
    rw [List.map_cons, List.foldl_cons, ih]
    rfl

theorem wrap_delta (before carried : Int) :
    wrap (wrap (wrap (before + carried) - wrap before) * 2) = wrap (2 * carried) := by
  -- the common part cancels modulo the word
  have delta : wrap (wrap (before + carried) - wrap before) = wrap carried := by
    unfold wrap
    rw [Int.sub_bmod_bmod, Int.bmod_sub_bmod]
    congr 1
    omega
  rw [delta]
  unfold wrap
  rw [Int.bmod_mul_bmod, Int.mul_comm]

theorem stats_after_reading (monitored : MonitoredEngine) {reading : MonitorEvent} (served last : List Input)
    (reads : ∀ input, reading ≠ .engine input) :
    let first := reading.inputs.foldl Tun2Socks.Engine.next monitored.engine
    let second := served.foldl Tun2Socks.Engine.next first
    ((reading :: served.map MonitorEvent.engine ++ [MonitorEvent.sample last]).foldl next monitored).shaper.stats =
      ⟨wrap (wrap (second.ulBytes - monitored.engine.ulBytes) * 2),
        wrap (wrap ((last.foldl Tun2Socks.Engine.next second).dlBytes - first.dlBytes) * 2), second.ulBytes,
        (last.foldl Tun2Socks.Engine.next second).dlBytes⟩ := by
  intro first second
  rw [List.cons_append, List.foldl_cons, List.foldl_append, run_served]
  cases reading with
  | engine input => exact absurd rfl (reads input)
  | startMonitoring between | sample between => rfl

/-- Each sample shows twice what was accepted from the device and received from the sockets
since the counters were last read, and all of it since the engine was started. -/
theorem samples_follow_traffic (tunFd : Nat) (mtu ulStart dlStart : Int) (past : List MonitorEvent)
    (reading : MonitorEvent) (served last : List Input) (reads : ∀ input, reading ≠ .engine input) :
    let engine := Tun2Socks.Engine.start tunFd mtu ulStart dlStart
    let before := past.flatMap MonitorEvent.inputs
    let events := past ++ (reading :: served.map .engine ++ [MonitorEvent.sample last])
    (events.foldl next (start tunFd mtu ulStart dlStart)).shaper.stats =
      { uploadBytesPerSec := wrap (2 * Tun2Socks.Engine.uploads (reading.inputs ++ served))
        downloadBytesPerSec := wrap (2 * downloaded
          (((before ++ reading.inputs).foldl Tun2Socks.Engine.next engine).calls (served ++ last)))
        totalUploadBytes := wrap (Tun2Socks.Engine.uploads (before ++ (reading.inputs ++ served)))
        totalDownloadBytes := wrap (downloaded
          (engine.calls (before ++ reading.inputs ++ (served ++ last)))) } := by
  intro engine before events
  have meters := Tun2Socks.Engine.meters_run tunFd mtu ulStart dlStart
  -- the counters at the four times they are looked at
  have zeroth := meters before
  have first := meters (before ++ reading.inputs)
  have second := meters (before ++ reading.inputs ++ served)
  have whole := meters (before ++ reading.inputs ++ (served ++ last))
  have ulFirst := zeroth.counters.ul
  have ulSecond := second.counters.ul
  have dlFirst := first.dlBytes
  have dlSecond := whole.dlBytes
  have began : (past.foldl next (start tunFd mtu ulStart dlStart)).engine =
      before.foldl Tun2Socks.Engine.next engine :=
    run_engine (start tunFd mtu ulStart dlStart) past
  simp only [events]
  rw [List.foldl_append, stats_after_reading _ served last reads, began]
  simp only [← List.foldl_append, List.append_assoc] at ulFirst ulSecond dlFirst dlSecond ⊢
  rw [ulFirst, ulSecond, dlFirst, dlSecond, LiveTrafficStats.mk.injEq]
  refine ⟨?_, ?_, rfl, rfl⟩
  · rw [Tun2Socks.Engine.uploads_append, Nat.cast_add, wrap_delta]
  -- the download is counted from the second load on
  · have calls : engine.calls (before ++ (reading.inputs ++ (served ++ last))) =
        engine.calls (before ++ reading.inputs) ++
          ((before ++ reading.inputs).foldl Tun2Socks.Engine.next engine).calls (served ++ last) := by
      rw [← Tun2Socks.Engine.calls_append, List.append_assoc]
    rw [calls, downloaded_append, Nat.cast_add, wrap_delta]

theorem samples_follow_traffic_sample :
    let past : List MonitorEvent := [.engine (.tunReadable sampleSyn (.smooth 7 0)),
      .engine (.socketReady 7 ⟨false, true⟩ (.smooth []))]
    let reading := MonitorEvent.startMonitoring [.socketReady 7 ⟨true, false⟩ (.smooth [1, 2, 3, 4])]
    let served : List Input := [.socketReady 7 ⟨true, false⟩ (.smooth [5, 6, 7])]
    let engine := Tun2Socks.Engine.start 3 1500 0 0
    let before := past.flatMap MonitorEvent.inputs
    let events := past ++ (reading :: served.map .engine ++ [MonitorEvent.sample []])
    (events.foldl next (start 3 1500 0 0)).shaper.stats =
      { uploadBytesPerSec := wrap (2 * Tun2Socks.Engine.uploads (reading.inputs ++ served))
        downloadBytesPerSec := wrap (2 * downloaded
          (((before ++ reading.inputs).foldl Tun2Socks.Engine.next engine).calls (served ++ [])))
        totalUploadBytes := wrap (Tun2Socks.Engine.uploads (before ++ (reading.inputs ++ served)))
        totalDownloadBytes := wrap (downloaded (engine.calls (before ++ reading.inputs ++ (served ++ [])))) } :=
  samples_follow_traffic 3 1500 0 0 _ (.startMonitoring _) _ [] (by simp)

end MonitoredEngine

end ThrottleVpn.Service
