import Mathlib.Data.Rat.Floor
import ThrottleVpn.App.Settings
import ThrottleVpn.Foundation.Threads

/-! The service, its native engine and the code of its functions.

`SpeedLimiterVpnService` is entered on the main thread, by network callbacks and by
the coroutines it launches. The memory they share is listed here with the statements
that work on it; every function of the source is the list of its statements. One
statement is atomic. Objects and descriptors are numbers that are never given out twice.
-/

set_option autoImplicit false

namespace ThrottleVpn.Service

open Foundation

inductive VpnStatus where
  | disconnected
  | connecting
  | connected
  | reconnecting
  | error
  deriving DecidableEq, Repr

/-! ### Memory -/

/-- The fields of `engine_t` that outlive a call; `none` is what `memset` or a failure
leaves in a field. -/
structure Engine where
  tunFd : Option Nat
  running : Bool
  vpnRef : Option Nat
  epollFd : Option Nat
  thread : Option Nat
  dlRate : Int
  ulRate : Int
  deriving DecidableEq, Repr

def Engine.zero : Engine := ⟨none, false, none, none, none, 0, 0⟩

inductive NativeCall where
  | memset
  | newGlobalRef (ref : Nat)
  | deleteGlobalRef (ref : Nat)
  | initLocks
  | destroyLocks
  | epollCreate (fd : Nat)
  | closeEpoll (fd : Option Nat)
  | pthreadCreate (thread : Nat)
  | pthreadJoin (thread : Option Nat)
  | stopDone (thread : Option Nat)
  deriving DecidableEq, Repr

structure Monitor where
  job : Nat
  shaper : Nat
  service : Nat
  deriving DecidableEq, Repr

structure Collector where
  shaper : Nat
  service : Nat
  deriving DecidableEq, Repr

/-- The companion's flows, the fields of the service instances (by instance) and of the
shapers (by shaper), the engine, and what the process holds: open TUN descriptors,
registered callbacks with their service, running jobs and engine threads. -/
structure Memory where
  status : VpnStatus
  dlCap : ℚ
  ulCap : ℚ
  current : Option Nat
  vpnFd : Nat → Option Nat
  engine : Nat → Bool
  shaper : Nat → Option Nat
  netCb : Nat → Option Nat
  cancelled : Nat → Bool
  shaperDl : Nat → ℚ
  shaperUl : Nat → ℚ
  monitorJob : Nat → Option Nat
  native : Engine
  calls : List NativeCall
  threads : List Nat
  tuns : List Nat
  callbacks : List (Nat × Nat)
  monitors : List Monitor
  collectors : List Collector
  fresh : Nat

def Memory.start : Memory where
  status := .disconnected
  dlCap := 0
  ulCap := 0
  current := none
  vpnFd := fun _ => none
  engine := fun _ => false
  shaper := fun _ => none
  netCb := fun _ => none
  cancelled := fun _ => false
  shaperDl := fun _ => 0
  shaperUl := fun _ => 0
  monitorJob := fun _ => none
  native := .zero
  calls := []
  threads := []
  tuns := []
  callbacks := []
  monitors := []
  collectors := []
  fresh := 0

/-! ### Statements -/

/-- The statements of the service, of `TrafficShaper`, and of `engine_start` and
`engine_stop`. A statement that calls a function is named after it. -/
inductive Stmt where
  -- onDestroy
  | cancelScope
  | clearInstance
  -- doStart, doStop
  | returnIfConnected
  | setStatus (status : VpnStatus)
  | launchStart
  | clearVpnFd
  | clearEngine
  | clearShaper
  | setDlCap (mbps : ℚ)
  | setUlCap (mbps : ℚ)
  | unregisterNetCb
  | clearNetCb
  -- the start of a coroutine that was launched
  | begin
  -- establish
  | closeVpnFd
  | stopEngine
  | buildVpnFd
  | newEngine
  | newShaper
  | startEngine
  -- updateCaps, applySavedCaps
  | updateShaperCaps (dl ul : ℚ)
  | applySavedCaps
  -- registerNetCb and its callbacks
  | newNetCb
  | registerNetCb
  | returnUnless (status : VpnStatus)
  | launchReconnect
  -- collectStats
  | launchCollector
  | collect
  -- TrafficShaper
  | startMonitoring
  | launchMonitor (shaper : Nat)
  | stopMonitoring
  | cancelMonitor (shaper : Nat)
  | setShaperCaps (shaper : Nat) (dl ul : ℚ)
  | setDlRate (mbps : ℚ)
  | setUlRate (mbps : ℚ)
  -- engine_start
  | memset
  | setFields (tun : Nat)
  | cacheRefs
  | initLocks
  | createEpoll
  | watchTun
  | createThread
  -- engine_stop
  | returnUnlessRunning
  | clearRunning
  | joinThread
  | tearDown
  deriving DecidableEq, Repr

/-- Where a task runs: lifecycle calls and `applyCaps` on the main thread, network callbacks
on theirs, `launch(Dispatchers.IO)` anywhere, `launch` on the main thread between its calls. -/
inductive Thread where
  | main
  | network
  | io
  | collector
  deriving DecidableEq, Repr

structure Site where
  thread : Thread
  service : Nat
  deriving DecidableEq, Repr

/-! ### Functions -/

def establish : List Stmt :=
  [.closeVpnFd, .stopEngine, .buildVpnFd, .newEngine, .newShaper, .startEngine]

def registerNetCb : List Stmt := [.newNetCb, .registerNetCb]

def updateCaps (dl ul : ℚ) : List Stmt := [.updateShaperCaps dl ul, .setDlCap dl, .setUlCap ul]

/-- The coroutine of `doStart`. -/
def startBody : List Stmt :=
  .begin :: establish ++ registerNetCb ++
    [.setStatus .connected, .applySavedCaps, .startMonitoring, .launchCollector]

/-- The coroutine of `onAvailable`. -/
def reconnectBody : List Stmt :=
  .begin :: establish ++ [.applySavedCaps, .startMonitoring, .setStatus .connected]

def onFailure : List Stmt := [.setStatus .error]

def doStart : List Stmt := [.returnIfConnected, .setStatus .connecting, .launchStart]

def doStop : List Stmt :=
  [.setStatus .disconnected, .stopMonitoring, .stopEngine, .closeVpnFd, .clearVpnFd, .clearEngine, .clearShaper,
    .setDlCap 0, .setUlCap 0, .unregisterNetCb, .clearNetCb]

def onDestroy : List Stmt := .cancelScope :: doStop ++ [.clearInstance]

def onAvailable : List Stmt := [.returnUnless .reconnecting, .launchReconnect]

def onLost : List Stmt := [.returnUnless .connected, .setStatus .reconnecting, .stopMonitoring]

def collectStats : List Stmt := [.begin, .collect]

def engineStart (tun : Nat) : List Stmt :=
  [.memset, .setFields tun, .cacheRefs, .initLocks, .createEpoll, .watchTun, .createThread]

def engineStop : List Stmt := [.clearRunning, .joinThread, .tearDown]

/-! ### Rates -/

/-- `Double.toLong`: towards zero, and saturating. -/
def toLong (x : ℚ) : Int :=
  let whole := if 0 ≤ x then ⌊x⌋ else ⌈x⌉
  if 2 ^ 63 ≤ whole then 2 ^ 63 - 1 else if whole < -2 ^ 63 then -2 ^ 63 else whole

def bytesPerSecond (mbps : ℚ) : Int := max (toLong (mbps * 1000000 / 8)) 0

theorem bytesPerSecond_eq {mbps : ℚ} (positive : 0 < mbps) (fits : mbps * 125000 < 2 ^ 63) :
    bytesPerSecond mbps = ⌊mbps * 125000⌋ := by
  have same : mbps * 1000000 / 8 = mbps * 125000 := by ring
  have nonneg : 0 ≤ mbps * 125000 := by positivity
  have low : 0 ≤ ⌊mbps * 125000⌋ := Int.floor_nonneg.mpr nonneg
  have high : ⌊mbps * 125000⌋ < 2 ^ 63 := Int.floor_lt.mpr (by exact_mod_cast fits)
  unfold bytesPerSecond toLong
  rw [same]
  simp only [if_pos nonneg]
  rw [if_neg (not_le.mpr high), if_neg (by omega), max_eq_left low]

end ThrottleVpn.Service
