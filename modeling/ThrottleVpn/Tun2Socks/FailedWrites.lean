import ThrottleVpn.Foundation.Tiling
import ThrottleVpn.Tun2Socks.Relay

/-! Writes to the device that fail.

Neither writer looks at what `write` returns: `our_seq` moves past a segment that
never reached the client as it does past any other. The loop is repeated here with
the results written down, so that the segments that got through can be told apart.
-/

set_option autoImplicit false

namespace ThrottleVpn.Tun2Socks

open Foundation

structure Attempt where
  packet : Packet
  written : Bool
  after : UInt32
  deriving DecidableEq, Repr

def Attempt.range (attempt : Attempt) : UInt32 × UInt32 := (attempt.packet.seq, attempt.after)

/-- `segmentLoop` with the results of its `write` calls, by their index in the call. -/
def attemptLoop (headers mss : Nat) (build : TcpSession → UInt8 → List UInt8 → Packet)
    (flags : UInt8) (payload : List UInt8) (results : Nat → Bool) :
    Nat → Nat → Nat → TcpSession → TcpSession × List Attempt
  | 0, _, _, session => (session, [])
  | fuel + 1, index, offset, session =>
    let chunk := (payload.drop offset).take mss
    if maxPacketSize < headers + chunk.length then (session, [])
    else
      let more := offset + chunk.length < payload.length
      let chunkFlags := if more then flags &&& ~~~(tfPsh ||| tfFin) else flags
      let seq := advanceSeq session.ourSeq (offset == 0) (offset + chunk.length == payload.length)
        chunkFlags chunk.length
      let attempt : Attempt := ⟨build session chunkFlags chunk, results index, seq⟩
      if more then
        let rest := attemptLoop headers mss build flags payload results fuel (index + 1)
          (offset + chunk.length) { session with ourSeq := seq }
        (rest.1, attempt :: rest.2)
      else ({ session with ourSeq := seq }, [attempt])

theorem attemptLoop_packets (headers mss : Nat) (build : TcpSession → UInt8 → List UInt8 → Packet)
    (flags : UInt8) (payload : List UInt8) (results : Nat → Bool) (fuel index offset : Nat)
    (session : TcpSession) :
    let tried := attemptLoop headers mss build flags payload results fuel index offset session
    (tried.1, tried.2.map Attempt.packet) =
      segmentLoop headers mss build flags payload fuel offset session := by
  induction fuel generalizing index offset session with
  | zero => rfl
  | succ fuel ih =>
    simp only [attemptLoop, segmentLoop]
    split
    · rfl
    · split
      · rw [← ih (index + 1)]
        rfl
      · rfl

def tryTcp (mtu : Int) (session : TcpSession) (flags : UInt8) (payload : List UInt8)
    (results : Nat → Bool) : TcpSession × List Attempt :=
  match session.flow.src with
  | .v4 _ => attemptLoop 40 (segmentSize mtu 40 1460) TcpSession.packetV4 flags payload results
      (payload.length + 1) 0 0 session
  | .v6 _ => attemptLoop 60 (segmentSize mtu 60 1440) TcpSession.packetV6 flags payload results
      (payload.length + 1) 0 0 session

/-- `tryTcp` is `write_tcp`: same session afterwards, same packets passed to `write`. -/
theorem tryTcp_packets (mtu : Int) (session : TcpSession) (flags : UInt8) (payload : List UInt8)
    (results : Nat → Bool) :
    let tried := tryTcp mtu session flags payload results
    (tried.1, tried.2.map Attempt.packet) = writeTcp mtu session flags payload := by
  unfold tryTcp writeTcp
  cases session.flow.src with
  | v4 addr => exact attemptLoop_packets ..
  | v6 addr => exact attemptLoop_packets ..

theorem tryTcp_cases (mtu : Int) (session : TcpSession) (flags : UInt8) (payload : List UInt8)
    (results : Nat → Bool) :
    ∃ build, Builds session.flow.headers build ∧
      tryTcp mtu session flags payload results =
        attemptLoop session.flow.headers (session.flow.mss mtu) build flags payload results
          (payload.length + 1) 0 0 session := by
  unfold Flow.headers Flow.mss tryTcp
  cases session.flow.src with
  | v4 addr => exact ⟨_, builds_packetV4, rfl⟩
  | v6 addr => exact ⟨_, builds_packetV6, rfl⟩

theorem advanceSeq_still_iff (seq : UInt32) (first last : Bool) (flags : UInt8) {chunkLen : Nat}
    (small : chunkLen ≤ maxPacketSize) :
    advanceSeq seq first last flags chunkLen = seq ↔
      chunkLen = 0 ∧ (first && hasFlag flags tfSyn) = false ∧ (last && hasFlag flags tfFin) = false := by
  have sum : advanceSeq seq first last flags chunkLen = seq + UInt32.ofNat
      ((first && hasFlag flags tfSyn).toNat + chunkLen + (last && hasFlag flags tfFin).toNat) := by
    unfold advanceSeq
    cases first && hasFlag flags tfSyn <;> cases last && hasFlag flags tfFin <;>
      simp [UInt32.ofNat_add, UInt32.add_assoc]
  have below : (first && hasFlag flags tfSyn).toNat + chunkLen + (last && hasFlag flags tfFin).toNat <
      UInt32.size := by
    have := Bool.toNat_le (first && hasFlag flags tfSyn)
    have := Bool.toNat_le (last && hasFlag flags tfFin)
    unfold maxPacketSize at small
    unfold UInt32.size
    omega
  have zero : ∀ count : Nat, count < UInt32.size → (seq + UInt32.ofNat count = seq ↔ count = 0) := by
    intro count bound
    rw [UInt32.add_eq_left, ← UInt32.toNat_inj, UInt32.toNat_ofNat_of_lt' bound]
    rfl
  rw [sum, zero _ below]
  cases first && hasFlag flags tfSyn <;> cases last && hasFlag flags tfFin <;> simp

/-! ### One call -/

/-- No segment that failed to be written has moved `our_seq`. -/
def Unmoved (attempts : List Attempt) : Prop :=
  ∀ attempt ∈ attempts, attempt.written = false → attempt.after = attempt.packet.seq

theorem unmoved_cons {attempt : Attempt} {rest : List Attempt} :
    Unmoved (attempt :: rest) ↔
      (attempt.after = attempt.packet.seq ∨ attempt.written = true) ∧ Unmoved rest := by
  unfold Unmoved
  rw [List.forall_mem_cons, or_iff_not_imp_right, Bool.not_eq_true]

def bytesOf (attempts : List Attempt) : List UInt8 := attempts.flatMap fun attempt => attempt.packet.payload

structure Tries (session : TcpSession) (bytes : List UInt8) (tried : TcpSession × List Attempt) : Prop where
  chained : Chains session.ourSeq tried.1.ourSeq (tried.2.map Attempt.range)
  bytes : bytesOf tried.2 = bytes
  still : ∀ attempt ∈ tried.2, attempt.after = attempt.packet.seq → attempt.packet.payload = []

section
variable {headers mss : Nat} {build : TcpSession → UInt8 → List UInt8 → Packet}
  (builds : Builds headers build) (flags : UInt8) (payload : List UInt8) (results : Nat → Bool)
include builds

/-- A payload that is not empty: every segment takes sequence numbers, so all of
them have to be written. -/
theorem attemptLoop_tries (mssPos : 0 < mss) (fits : headers + min mss payload.length ≤ maxPacketSize)
    (fuel index : Nat) (session : TcpSession) (inside : index * mss < payload.length)
    (enough : payload.length - index * mss < fuel) :
    let tried := attemptLoop headers mss build flags payload results fuel index (index * mss) session
    Tries session (payload.drop (index * mss)) tried ∧
      (Unmoved tried.2 ↔ ∀ other, index ≤ other → other * mss < payload.length → results other = true) := by
  induction fuel generalizing index session with
  | zero => omega
  | succ fuel ih =>
    have chunkLen : ((payload.drop (index * mss)).take mss).length = min mss (payload.length - index * mss) := by
      simp
    have noBreak : ¬maxPacketSize < headers + ((payload.drop (index * mss)).take mss).length := by omega
    have next : (index + 1) * mss = index * mss + mss := Nat.succ_mul index mss
    unfold attemptLoop
    simp only [if_neg noBreak]
    by_cases more : index * mss + ((payload.drop (index * mss)).take mss).length < payload.length
    · -- a full segment, then the rest
      simp only [if_pos more]
      have full : ((payload.drop (index * mss)).take mss).length = mss := by omega
      have goOn : index * mss + ((payload.drop (index * mss)).take mss).length = (index + 1) * mss := by omega
      generalize seqIs : advanceSeq session.ourSeq (index * mss == 0)
        (index * mss + ((payload.drop (index * mss)).take mss).length == payload.length)
        (flags &&& ~~~(tfPsh ||| tfFin)) ((payload.drop (index * mss)).take mss).length = seq
      have moves : seq ≠ session.ourSeq := by
        rw [← seqIs, Ne, advanceSeq_still_iff _ _ _ _ (by omega)]
        rintro ⟨none, -⟩
        omega
      rw [goOn]
      obtain ⟨⟨chained, bytes, still⟩, unmoved⟩ := ih (index + 1) { session with ourSeq := seq } (by omega) (by omega)
      refine ⟨⟨⟨builds.seq _ _ _, chained⟩, ?_, ?_⟩, ?_⟩
      · rw [bytesOf, List.flatMap_cons, builds.payload, ← bytesOf, bytes, next, ← List.drop_drop,
          List.take_append_drop]
      · rw [List.forall_mem_cons, builds.seq]
        exact ⟨fun same => absurd same moves, still⟩
      · rw [unmoved_cons, unmoved, builds.seq, or_iff_right moves]
        constructor
        · rintro ⟨here, others⟩ other above below
          rcases Nat.eq_or_lt_of_le above with rfl | beyond
          · exact here
          · exact others other beyond below
        · exact fun all => ⟨all index le_rfl inside, fun other beyond below => all other (by omega) below⟩
    · -- the last segment
      simp only [if_neg more]
      have all : (payload.drop (index * mss)).take mss = payload.drop (index * mss) := by
        apply List.take_of_length_le
        rw [List.length_drop]
        omega
      have moves : advanceSeq session.ourSeq (index * mss == 0)
          (index * mss + ((payload.drop (index * mss)).take mss).length == payload.length) flags
          ((payload.drop (index * mss)).take mss).length ≠ session.ourSeq := by
        rw [Ne, advanceSeq_still_iff _ _ _ _ (by omega)]
        rintro ⟨none, -⟩
        omega
      refine ⟨⟨⟨builds.seq _ _ _, rfl⟩, ?_, ?_⟩, ?_⟩
      · rw [bytesOf, List.flatMap_singleton, builds.payload, all]
      · intro attempt member
        obtain rfl := List.mem_singleton.mp member
        rw [builds.seq]
        exact fun same => absurd same moves
      · rw [unmoved_cons, builds.seq, or_iff_right moves]
        have only : ∀ other, index ≤ other → other * mss < payload.length → other = index := by
          intro other above below
          rcases Nat.eq_or_lt_of_le above with same | beyond
          · exact same.symm
          · have : (index + 1) * mss ≤ other * mss := Nat.mul_le_mul_right mss beyond
            omega
        exact ⟨fun here other above below => only other above below ▸ here.1,
          fun written => ⟨written index le_rfl inside, fun attempt member => absurd member (List.not_mem_nil)⟩⟩

theorem attemptLoop_nil (small : headers ≤ maxPacketSize) (session : TcpSession) :
    let tried := attemptLoop headers mss build flags [] results 1 0 0 session
    Tries session [] tried ∧ (Unmoved tried.2 ↔
      hasFlag flags tfSyn = false ∧ hasFlag flags tfFin = false ∨ results 0 = true) := by
  have only : attemptLoop headers mss build flags [] results 1 0 0 session =
      ({ session with ourSeq := advanceSeq session.ourSeq true true flags 0 },
        [⟨build session flags [], results 0, advanceSeq session.ourSeq true true flags 0⟩]) := by
    simp [attemptLoop, Nat.not_lt.mpr small]
  rw [only]
  refine ⟨⟨⟨builds.seq _ _ _, rfl⟩, ?_, ?_⟩, ?_⟩
  · rw [bytesOf, List.flatMap_singleton, builds.payload]
  · intro attempt member
    obtain rfl := List.mem_singleton.mp member
    exact fun _ => builds.payload _ _ _
  · rw [unmoved_cons, builds.seq, advanceSeq_still_iff _ _ _ _ (Nat.zero_le _)]
    simp [Unmoved]

omit builds in
theorem attemptLoop_large (large : maxPacketSize < headers + min mss payload.length) (fuel : Nat)
    (session : TcpSession) :
    attemptLoop headers mss build flags payload results (fuel + 1) 0 0 session = (session, []) := by
  have breaks : maxPacketSize < headers + ((payload.drop 0).take mss).length := by
    rwa [List.drop_zero, List.length_take]
  unfold attemptLoop
  exact if_pos breaks

/-- One call leaves `our_seq` to its written segments exactly when it writes nothing,
takes no sequence number, or all its segments got through. -/
theorem attemptLoop_call (mssPos : 0 < mss) (small : headers ≤ maxPacketSize) (session : TcpSession) :
    let tried := attemptLoop headers mss build flags payload results (payload.length + 1) 0 0 session
    let fits := headers + min mss payload.length ≤ maxPacketSize
    Tries session (if fits then payload else []) tried ∧
      (Unmoved tried.2 ↔ (fits →
        payload = [] ∧ hasFlag flags tfSyn = false ∧ hasFlag flags tfFin = false ∨
        ∀ index, (index = 0 ∨ index * mss < payload.length) → results index = true)) := by
  intro tried fits
  by_cases room : headers + min mss payload.length ≤ maxPacketSize
  · have room' : fits := room
    rw [if_pos room', forall_prop_of_true room']
    cases content : payload with
    | nil =>
      obtain ⟨tries, unmoved⟩ := @attemptLoop_nil headers mss build builds flags results small session
      have same : tried = attemptLoop headers mss build flags [] results 1 0 0 session := by
        simp only [tried, content, List.length_nil]
      rw [same]
      refine ⟨tries, unmoved.trans (or_congr (by simp) ?_)⟩
      constructor
      · rintro written index (rfl | below)
        · exact written
        · exact absurd below (Nat.not_lt_zero _)
      · exact fun all => all 0 (.inl rfl)
    | cons head rest =>
      have pos : 0 < payload.length := by rw [content]; exact Nat.succ_pos _
      obtain ⟨tries, unmoved⟩ := attemptLoop_tries builds flags payload results mssPos room
        (payload.length + 1) 0 session (by omega) (by omega)
      rw [Nat.zero_mul] at tries unmoved
      rw [← content]
      refine ⟨tries, unmoved.trans ?_⟩
      rw [or_iff_right fun none => by simp [content] at none]
      constructor
      · rintro all index (rfl | below)
        · exact all 0 le_rfl (by rwa [Nat.zero_mul])
        · exact all index (Nat.zero_le _) below
      · exact fun all index _ below => all index (.inr below)
  · have nothing : tried = (session, []) :=
      attemptLoop_large flags payload results (Nat.not_le.mp room) payload.length session
    have room' : ¬fits := room
    rw [if_neg room', nothing]
    exact ⟨⟨rfl, rfl, List.forall_mem_nil _⟩,
      iff_of_true (List.forall_mem_nil _) fun fits => absurd fits room'⟩

end

/-! ### Many calls -/

/-- One call of `write_tcp`: the acknowledgement number of the session at the time,
the arguments, and what its `write` calls return. -/
structure WriteCall where
  clientSeq : UInt32
  flags : UInt8
  payload : List UInt8
  results : Nat → Bool

def tryCalls (mtu : Int) : TcpSession → List WriteCall → TcpSession × List Attempt
  | session, [] => (session, [])
  | session, call :: rest =>
    let first := tryTcp mtu { session with clientSeq := call.clientSeq } call.flags call.payload call.results
    let others := tryCalls mtu first.1 rest
    (others.1, first.2 ++ others.2)

namespace WriteCall

def Fits (call : WriteCall) (flow : Flow) (mtu : Int) : Prop :=
  flow.headers + min (flow.mss mtu) call.payload.length ≤ maxPacketSize

def TakesNone (call : WriteCall) : Prop :=
  call.payload = [] ∧ hasFlag call.flags tfSyn = false ∧ hasFlag call.flags tfFin = false

def AllWritten (call : WriteCall) (flow : Flow) (mtu : Int) : Prop :=
  ∀ index, (index = 0 ∨ index * flow.mss mtu < call.payload.length) → call.results index = true

end WriteCall

instance (call : WriteCall) (flow : Flow) (mtu : Int) : Decidable (call.Fits flow mtu) :=
  inferInstanceAs (Decidable (_ ≤ _))

/-- What the writes of a session leave no hole in: those that got through follow
one another up to `our_seq`, which the others have not moved, and they carry every
byte it has moved past. -/
structure NoHole (start : UInt32) (tried : TcpSession × List Attempt) : Prop where
  contiguous : Chains start tried.1.ourSeq ((tried.2.filter Attempt.written).map Attempt.range)
  unmoved : Unmoved tried.2
  bytes : bytesOf (tried.2.filter Attempt.written) = bytesOf tried.2

section
variable {session : TcpSession} {tried : TcpSession × List Attempt} {bytes : List UInt8}

theorem bytesOf_append (first second : List Attempt) :
    bytesOf (first ++ second) = bytesOf first ++ bytesOf second := by
  simp [bytesOf]

theorem unmoved_append {first second : List Attempt} :
    Unmoved (first ++ second) ↔ Unmoved first ∧ Unmoved second := by
  simp only [Unmoved, List.forall_mem_append]

theorem Tries.append {further : TcpSession × List Attempt} {more : List UInt8}
    (first : Tries session bytes tried) (second : Tries tried.1 more further) :
    Tries session (bytes ++ more) (further.1, tried.2 ++ further.2) where
  chained := by
    rw [List.map_append]
    exact chains_append first.chained second.chained
  bytes := by rw [bytesOf_append, first.bytes, second.bytes]
  still := List.forall_mem_append.mpr ⟨first.still, second.still⟩

theorem bytesOf_written {attempts : List Attempt} (unmoved : Unmoved attempts)
    (still : ∀ attempt ∈ attempts, attempt.after = attempt.packet.seq → attempt.packet.payload = []) :
    bytesOf (attempts.filter Attempt.written) = bytesOf attempts := by
  induction attempts with
  | nil => rfl
  | cons attempt rest ih =>
    rw [List.forall_mem_cons] at still
    have further := ih (fun other member => unmoved other (List.mem_cons_of_mem _ member)) still.2
    cases written : attempt.written with
    | true =>
      rw [List.filter_cons_of_pos written, bytesOf, List.flatMap_cons, ← bytesOf, further, bytesOf, bytesOf,
        List.flatMap_cons]
    | false =>
      have empty := still.1 (unmoved attempt List.mem_cons_self written)
      rw [List.filter_cons_of_neg (by simp [written]), further, bytesOf, bytesOf, List.flatMap_cons, empty,
        List.nil_append]

theorem Tries.noHole_iff (tries : Tries session bytes tried) :
    NoHole session.ourSeq tried ↔ Unmoved tried.2 :=
  ⟨NoHole.unmoved, fun unmoved => ⟨tries.chained.filter unmoved, unmoved, bytesOf_written unmoved tries.still⟩⟩

end

def WriteCall.passed (call : WriteCall) (flow : Flow) (mtu : Int) : List UInt8 :=
  if call.Fits flow mtu then call.payload else []

theorem tryTcp_tries (mtu : Int) (session : TcpSession) (call : WriteCall) :
    let tried := tryTcp mtu { session with clientSeq := call.clientSeq } call.flags call.payload call.results
    Tries session (call.passed session.flow mtu) tried ∧ tried.1.flow = session.flow ∧
      (Unmoved tried.2 ↔ (call.Fits session.flow mtu → call.TakesNone ∨ call.AllWritten session.flow mtu)) := by
  have same := tryTcp_packets mtu { session with clientSeq := call.clientSeq } call.flags call.payload
    call.results
  obtain ⟨build, builds, loop⟩ :=
    tryTcp_cases mtu { session with clientSeq := call.clientSeq } call.flags call.payload call.results
  obtain ⟨⟨chained, bytes, still⟩, unmoved⟩ := attemptLoop_call builds call.flags call.payload call.results
    (session.flow.mss_pos mtu) session.flow.headers_le { session with clientSeq := call.clientSeq }
  have flowEq := congrArg (fun out => out.1.flow) same
  rw [← loop] at chained bytes still unmoved
  exact ⟨⟨chained, bytes, still⟩, flowEq.trans (writeTcp_flow ..), unmoved⟩

theorem tryCalls_tries (mtu : Int) (session : TcpSession) (calls : List WriteCall) :
    Tries session (calls.flatMap fun call => call.passed session.flow mtu) (tryCalls mtu session calls) ∧
      (Unmoved (tryCalls mtu session calls).2 ↔ ∀ call ∈ calls,
        call.Fits session.flow mtu → call.TakesNone ∨ call.AllWritten session.flow mtu) := by
  induction calls generalizing session with
  | nil => exact ⟨⟨rfl, rfl, List.forall_mem_nil _⟩, iff_of_true (List.forall_mem_nil _) (List.forall_mem_nil _)⟩
  | cons call rest ih =>
    obtain ⟨first, flowEq, unmoved⟩ := tryTcp_tries mtu session call
    obtain ⟨others, unmovedOthers⟩ :=
      ih (tryTcp mtu { session with clientSeq := call.clientSeq } call.flags call.payload call.results).1
    rw [flowEq] at others unmovedOthers
    refine ⟨first.append others, ?_⟩
    rw [tryCalls, unmoved_append, unmoved, unmovedOthers, List.forall_mem_cons]

theorem WriteCall.fits_of_nil {call : WriteCall} (empty : call.payload = []) (flow : Flow) (mtu : Int) :
    call.Fits flow mtu := by
  unfold Fits Flow.headers
  rw [empty]
  cases flow.src <;> simp [maxPacketSize]

theorem length_passed_le (flow : Flow) (mtu : Int) (calls : List WriteCall) :
    (calls.flatMap fun call => call.passed flow mtu).length ≤ (calls.flatMap WriteCall.payload).length := by
  induction calls with
  | nil => exact le_rfl
  | cons call rest ih =>
    have here : (call.passed flow mtu).length ≤ call.payload.length := by
      unfold WriteCall.passed
      split <;> simp
    simp only [List.flatMap_cons, List.length_append]
    omega

theorem passed_all_iff (flow : Flow) (mtu : Int) (calls : List WriteCall) :
    (calls.flatMap fun call => call.passed flow mtu) = calls.flatMap WriteCall.payload ↔
      ∀ call ∈ calls, call.Fits flow mtu := by
  induction calls with
  | nil => exact iff_of_true rfl (List.forall_mem_nil _)
  | cons call rest ih =>
    rw [List.flatMap_cons, List.flatMap_cons, List.forall_mem_cons]
    by_cases fits : call.Fits flow mtu
    · have passed : call.passed flow mtu = call.payload := if_pos fits
      rw [passed, List.append_cancel_left_eq, ih, and_iff_right fits]
    · have passed : call.passed flow mtu = [] := if_neg fits
      refine iff_of_false (fun same => ?_) fun both => fits both.1
      have pos := List.length_pos_iff.mpr fun empty => fits (WriteCall.fits_of_nil empty flow mtu)
      have lengths := congrArg List.length same
      have := length_passed_le flow mtu rest
      rw [passed, List.nil_append, List.length_append] at lengths
      omega

/-- The writes of a session leave no hole exactly when every call that passes anything
to `write` takes no sequence number or gets all its segments through. Nothing is
dropped either exactly when the calls also fit the buffer. -/
theorem no_hole_iff (mtu : Int) (session : TcpSession) (calls : List WriteCall) :
    let tried := tryCalls mtu session calls
    (NoHole session.ourSeq tried ↔ ∀ call ∈ calls,
      call.Fits session.flow mtu → call.TakesNone ∨ call.AllWritten session.flow mtu) ∧
    (NoHole session.ourSeq tried ∧
        bytesOf (tried.2.filter Attempt.written) = calls.flatMap WriteCall.payload ↔ ∀ call ∈ calls,
      call.Fits session.flow mtu ∧ (call.TakesNone ∨ call.AllWritten session.flow mtu)) := by
  obtain ⟨tries, unmoved⟩ := tryCalls_tries mtu session calls
  have noHole := tries.noHole_iff.trans unmoved
  refine ⟨noHole, ?_⟩
  constructor
  · rintro ⟨whole, carried⟩ call member
    rw [whole.bytes, tries.bytes, passed_all_iff] at carried
    exact ⟨carried call member, noHole.mp whole call member (carried call member)⟩
  · intro all
    have whole := noHole.mpr fun call member _ => (all call member).2
    refine ⟨whole, ?_⟩
    rw [whole.bytes, tries.bytes, passed_all_iff]
    exact fun call member => (all call member).1

/-- The writes of any session leave no hole, whichever of them fail. -/
def WritesContiguous : Prop :=
  ∀ (mtu : Int) (session : TcpSession) (calls : List WriteCall),
    NoHole session.ourSeq (tryCalls mtu session calls)

/-- Three bytes in two segments, and the second is refused: `our_seq` is past it. -/
theorem failed_write_leaves_hole : ¬WritesContiguous := by
  intro contiguous
  have whole := contiguous 42 sampleSession [⟨1001, tfPsh ||| tfAck, [1, 2, 3], fun index => index == 0⟩]
  exact absurd whole.bytes (by decide +kernel)

end ThrottleVpn.Tun2Socks
