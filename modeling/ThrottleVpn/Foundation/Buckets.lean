import Mathlib.Data.List.FinRange
import Mathlib.Data.List.Pairwise
import Mathlib.Logic.Function.Basic

/-! Chained hash tables of heap records.

A chain is the list of the records linked in it, head first. A record carries
its own address: pointer comparison is comparison of addresses, and writing
through a pointer replaces the record with that address wherever it is linked.
-/

set_option autoImplicit false

namespace ThrottleVpn.Foundation

abbrev Buckets (size : Nat) (Record : Type) := Fin size → List Record

namespace Buckets

variable {size : Nat} {Record Key : Type}

def empty : Buckets size Record := fun _ => []

def Linked (table : Buckets size Record) (record : Record) : Prop := ∃ index, record ∈ table index

def records (table : Buckets size Record) : List Record := (List.finRange size).flatMap table

def search (table : Buckets size Record) (test : Record → Bool) : Option Record :=
  (List.finRange size).findSome? fun index => (table index).find? test

def push (table : Buckets size Record) (index : Fin size) (record : Record) : Buckets size Record :=
  Function.update table index (record :: table index)

def unlink (addr : Record → Nat) (table : Buckets size Record) (index : Fin size) (target : Nat) :
    Buckets size Record :=
  Function.update table index ((table index).eraseP fun record => addr record == target)

def store (addr : Record → Nat) (table : Buckets size Record) (record : Record) :
    Buckets size Record :=
  fun index => (table index).map fun old => if addr old = addr record then record else old

def sweep (table : Buckets size Record) (keep : Record → Bool) : Buckets size Record :=
  fun index => (table index).filter keep

/-- Every record is in the chain of its key, no key and no address occurs twice,
and addresses below `next` have been handed out. -/
structure Chained (hash : Key → Fin size) (key : Record → Key) (addr : Record → Nat) (next : Nat)
    (table : Buckets size Record) : Prop where
  placed : ∀ index, ∀ record ∈ table index, hash (key record) = index
  keys : ∀ index, (table index).Pairwise fun first second => key first ≠ key second
  addrs : ∀ first second, table.Linked first → table.Linked second →
    addr first = addr second → first = second
  allocated : ∀ record, table.Linked record → addr record < next

section
variable {hash : Key → Fin size} {key : Record → Key} {addr : Record → Nat} {next : Nat}
  {table : Buckets size Record}

theorem search_some {test : Record → Bool} {record : Record}
    (found : table.search test = some record) : table.Linked record ∧ test record = true := by
  obtain ⟨index, -, found⟩ := List.exists_of_findSome?_eq_some found
  exact ⟨⟨index, List.mem_of_find?_eq_some found⟩, List.find?_some found⟩

theorem search_none_iff {test : Record → Bool} :
    table.search test = none ↔ ∀ record, table.Linked record → test record = false := by
  simp only [search, List.findSome?_eq_none_iff, List.mem_finRange, List.find?_eq_none, forall_const,
    Linked, Bool.not_eq_true]
  exact ⟨fun all record ⟨index, member⟩ => all index record member,
    fun all index record member => all record ⟨index, member⟩⟩

theorem mem_records {record : Record} : record ∈ table.records ↔ table.Linked record := by
  simp only [records, List.mem_flatMap, List.mem_finRange, true_and, Linked]

theorem linked_push {index : Fin size} {record other : Record} :
    (table.push index record).Linked other ↔ other = record ∨ table.Linked other := by
  unfold push Linked
  constructor
  · rintro ⟨position, member⟩
    by_cases here : position = index
    · subst here
      rw [Function.update_self, List.mem_cons] at member
      exact member.imp_right fun member => ⟨position, member⟩
    · rw [Function.update_of_ne here] at member
      exact .inr ⟨position, member⟩
  · rintro (rfl | ⟨position, member⟩)
    · exact ⟨index, by simp⟩
    · refine ⟨position, ?_⟩
      by_cases here : position = index
      · subst here
        simp [member]
      · rwa [Function.update_of_ne here]

theorem linked_sweep {keep : Record → Bool} {record : Record} :
    (table.sweep keep).Linked record ↔ table.Linked record ∧ keep record = true := by
  simp only [Linked, sweep, List.mem_filter, exists_and_right]

/-- A record written through its pointer is linked where the pointer is. -/
theorem linked_stored {addr : Record → Nat} {old record : Record} (linked : table.Linked old)
    (same : addr old = addr record) : (table.store addr record).Linked record := by
  obtain ⟨index, member⟩ := linked
  exact ⟨index, List.mem_map.mpr ⟨old, member, if_pos same⟩⟩

theorem Chained.empty : Chained hash key addr next (Buckets.empty : Buckets size Record) where
  placed := by simp [Buckets.empty]
  keys := by simp [Buckets.empty]
  addrs := by simp [Buckets.empty, Linked]
  allocated := by simp [Buckets.empty, Linked]

namespace Chained
variable (chained : Chained hash key addr next table)
include chained

theorem linked_iff {record : Record} : table.Linked record ↔ record ∈ table (hash (key record)) := by
  constructor
  · rintro ⟨index, member⟩
    rwa [chained.placed index record member]
  · exact fun member => ⟨_, member⟩

theorem key_unique {first second : Record} (left : table.Linked first) (right : table.Linked second)
    (same : key first = key second) : first = second := by
  rw [chained.linked_iff] at left right
  rw [same] at left
  have distinct := chained.keys (hash (key second))
  by_contra different
  rcases List.mem_iff_append.mp left with ⟨before, after, split⟩
  rw [split] at right distinct
  rw [List.pairwise_append, List.pairwise_cons] at distinct
  rcases List.mem_append.mp right with earlier | later
  · exact distinct.2.2 second earlier first (by simp) same.symm
  · rcases List.mem_cons.mp later with here | later
    · exact different here.symm
    · exact distinct.2.1.1 second later same

theorem records_nodup : table.records.Nodup := by
  unfold records
  rw [List.nodup_flatMap]
  constructor
  · intro index _
    refine (chained.keys index).imp fun {first second} distinct same => distinct (congrArg key same)
  · refine (List.nodup_finRange size).imp fun {first second} different => ?_
    intro record left right
    exact different ((chained.placed first record left).symm.trans (chained.placed second record right))

theorem keys_nodup : (table.records.map key).Nodup := by
  apply List.Nodup.map_on _ chained.records_nodup
  intro first left second right same
  exact chained.key_unique (mem_records.mp left) (mem_records.mp right) same

/-- Lookup by key finds the one linked record with that key, and nothing else. -/
theorem find_eq_some_iff [DecidableEq Key] {wanted : Key} {record : Record} :
    (table (hash wanted)).find? (fun entry => decide (key entry = wanted)) = some record ↔
      table.Linked record ∧ key record = wanted := by
  constructor
  · intro found
    have hit := List.find?_some found
    exact ⟨⟨_, List.mem_of_find?_eq_some found⟩, of_decide_eq_true hit⟩
  · rintro ⟨linked, rfl⟩
    have member := chained.linked_iff.mp linked
    cases found : (table (hash (key record))).find? fun entry => decide (key entry = key record) with
    | none => simpa using List.find?_eq_none.mp found record member
    | some other =>
      have hit := List.find?_some found
      have same : key other = key record := of_decide_eq_true hit
      exact congrArg some (chained.key_unique ⟨_, List.mem_of_find?_eq_some found⟩ linked same)

theorem find_eq_none_iff [DecidableEq Key] {wanted : Key} :
    (table (hash wanted)).find? (fun entry => decide (key entry = wanted)) = none ↔
      ∀ record, table.Linked record → key record ≠ wanted := by
  rw [List.find?_eq_none]
  constructor
  · intro none record linked same
    subst same
    simpa using none record (chained.linked_iff.mp linked)
  · intro none record member
    simpa using none record ⟨_, member⟩

theorem push (record : Record) (absent : ∀ other, table.Linked other → key other ≠ key record)
    (fresh : addr record = next) :
    Chained hash key addr (next + 1) (table.push (hash (key record)) record) where
  placed := by
    intro index other member
    unfold Buckets.push at member
    by_cases here : index = hash (key record)
    · subst here
      rw [Function.update_self, List.mem_cons] at member
      rcases member with rfl | member
      · rfl
      · exact chained.placed _ _ member
    · rw [Function.update_of_ne here] at member
      exact chained.placed _ _ member
  keys := by
    intro index
    unfold Buckets.push
    by_cases here : index = hash (key record)
    · subst here
      rw [Function.update_self, List.pairwise_cons]
      exact ⟨fun other member same => absent other ⟨_, member⟩ same.symm, chained.keys _⟩
    · rw [Function.update_of_ne here]
      exact chained.keys _
  addrs := by
    intro first second left right same
    rw [linked_push] at left right
    rcases left with rfl | left <;> rcases right with rfl | right
    · rfl
    -- an address that was given out lies below the fresh one
    · exact absurd (chained.allocated _ right) (by omega)
    · exact absurd (chained.allocated _ left) (by omega)
    · exact chained.addrs _ _ left right same
  allocated := by
    intro other linked
    rcases linked_push.mp linked with rfl | linked
    · omega
    · exact (chained.allocated _ linked).trans (Nat.lt_succ_self next)

theorem linked_unlink {target other : Record} (linked : table.Linked target) :
    (table.unlink addr (hash (key target)) (addr target)).Linked other ↔
      table.Linked other ∧ other ≠ target := by
  have nodup : (table (hash (key target))).Pairwise fun first second => addr first ≠ addr second := by
    refine (chained.keys (hash (key target))).imp_of_mem fun {first second} left right distinct same => ?_
    exact distinct (congrArg key (chained.addrs first second ⟨_, left⟩ ⟨_, right⟩ same))
  -- `eraseP` drops the first hit; keys are unique in a chain, so there is no second
  have erased : ∀ entry, entry ∈ (table (hash (key target))).eraseP (fun record => addr record == addr target) ↔
      entry ∈ table (hash (key target)) ∧ entry ≠ target := by
    intro entry
    have member := chained.linked_iff.mp linked
    constructor
    · intro kept
      have inside := List.mem_of_mem_eraseP kept
      refine ⟨inside, fun same => ?_⟩
      subst same
      obtain ⟨head, before, after, notBefore, hit, split, rest⟩ :=
        List.exists_of_eraseP (p := fun record => addr record == addr entry) member (by simp)
      have headMember : head ∈ table (hash (key entry)) := by simp [split]
      have sameHead : head = entry :=
        chained.addrs head entry ⟨_, headMember⟩ linked (by simpa using hit)
      subst sameHead
      rw [rest] at kept
      rw [split, List.pairwise_append, List.pairwise_cons] at nodup
      rcases List.mem_append.mp kept with earlier | later
      · exact notBefore head earlier hit
      · exact nodup.2.1.1 head later rfl
    · rintro ⟨inside, different⟩
      refine (List.mem_eraseP_of_neg ?_).mpr inside
      intro hit
      exact different (chained.addrs entry target ⟨_, inside⟩ linked (by simpa using hit))
  unfold unlink
  constructor
  · rintro ⟨index, member⟩
    by_cases here : index = hash (key target)
    · subst here
      rw [Function.update_self, erased] at member
      exact ⟨⟨_, member.1⟩, member.2⟩
    · rw [Function.update_of_ne here] at member
      refine ⟨⟨index, member⟩, fun same => here ?_⟩
      rw [← same]
      exact (chained.placed index other member).symm
  · rintro ⟨⟨index, member⟩, different⟩
    refine ⟨index, ?_⟩
    by_cases here : index = hash (key target)
    · subst here
      rw [Function.update_self, erased]
      exact ⟨member, different⟩
    · rwa [Function.update_of_ne here]

theorem unlink {target : Record} (linked : table.Linked target) :
    Chained hash key addr next (table.unlink addr (hash (key target)) (addr target)) where
  placed := by
    intro index other member
    exact chained.placed index other (by
      unfold Buckets.unlink at member
      by_cases here : index = hash (key target)
      · subst here
        rw [Function.update_self] at member
        exact List.mem_of_mem_eraseP member
      · rwa [Function.update_of_ne here] at member)
  keys := by
    intro index
    unfold Buckets.unlink
    by_cases here : index = hash (key target)
    · subst here
      rw [Function.update_self]
      exact (chained.keys _).sublist List.eraseP_sublist
    · rw [Function.update_of_ne here]
      exact chained.keys _
  addrs := fun _ _ left right => chained.addrs _ _ ((chained.linked_unlink linked).mp left).1
    ((chained.linked_unlink linked).mp right).1
  allocated := fun _ member => chained.allocated _ ((chained.linked_unlink linked).mp member).1

theorem linked_store (record : Record) {old other : Record} (linked : table.Linked old)
    (sameAddr : addr record = addr old) :
    (table.store addr record).Linked other ↔ other = record ∨ table.Linked other ∧ other ≠ old := by
  unfold store Linked
  simp only [List.mem_map]
  constructor
  · rintro ⟨index, entry, member, rfl⟩
    by_cases hit : addr entry = addr record
    · left
      rw [if_pos hit]
    · right
      rw [if_neg hit]
      exact ⟨⟨index, member⟩, fun same => hit (by rw [same, sameAddr])⟩
  · rintro (rfl | ⟨⟨index, member⟩, different⟩)
    · obtain ⟨index, member⟩ := linked
      exact ⟨index, old, member, by rw [if_pos sameAddr.symm]⟩
    · refine ⟨index, other, member, if_neg fun hit => different ?_⟩
      exact chained.addrs other old ⟨index, member⟩ linked (by rw [hit, sameAddr])

theorem shows_store {View : Type} {view : Record → View} (record : Record) {old : Record}
    (linked : table.Linked old) (sameAddr : addr record = addr old) (sameView : view record = view old)
    (shown : View) :
    (∃ entry, (table.store addr record).Linked entry ∧ view entry = shown) ↔
      ∃ entry, table.Linked entry ∧ view entry = shown := by
  constructor
  · rintro ⟨entry, stored, rfl⟩
    rcases (chained.linked_store record linked sameAddr).mp stored with rfl | ⟨before, -⟩
    · exact ⟨old, linked, sameView.symm⟩
    · exact ⟨entry, before, rfl⟩
  · rintro ⟨entry, before, rfl⟩
    by_cases here : entry = old
    · subst here
      exact ⟨record, linked_stored linked sameAddr.symm, sameView⟩
    · exact ⟨entry, (chained.linked_store record linked sameAddr).mpr (.inr ⟨before, here⟩), rfl⟩

theorem store (record : Record) {old : Record} (linked : table.Linked old) (sameAddr : addr record = addr old)
    (sameKey : key record = key old) : Chained hash key addr next (table.store addr record) where
  placed := by
    intro index other stored
    obtain ⟨entry, member, rfl⟩ := List.mem_map.mp stored
    split
    next hit =>
      have same := chained.addrs entry old ⟨index, member⟩ linked (by rw [hit, sameAddr])
      rw [sameKey, ← same]
      exact chained.placed index entry member
    next => exact chained.placed index entry member
  keys := by
    intro index
    have kept : ∀ entry ∈ table index,
        key (if addr entry = addr record then record else entry) = key entry := by
      intro entry member
      split
      next hit =>
        rw [sameKey, chained.addrs entry old ⟨index, member⟩ linked (by rw [hit, sameAddr])]
      next => rfl
    unfold Buckets.store
    rw [List.pairwise_map]
    refine (chained.keys index).imp_of_mem fun {first second} left right distinct => ?_
    rwa [kept first left, kept second right]
  addrs := by
    intro first second left right same
    rw [chained.linked_store record linked sameAddr] at left right
    rcases left with rfl | ⟨left, notLeft⟩ <;> rcases right with rfl | ⟨right, notRight⟩
    · rfl
    · exact absurd (chained.addrs _ _ right linked (by rw [← same, sameAddr])) notRight
    · exact absurd (chained.addrs _ _ left linked (by rw [same, sameAddr])) notLeft
    · exact chained.addrs _ _ left right same
  allocated := by
    intro other member
    rcases (chained.linked_store record linked sameAddr).mp member with rfl | ⟨member, -⟩
    · rw [sameAddr]
      exact chained.allocated _ linked
    · exact chained.allocated _ member

theorem sweep (keep : Record → Bool) : Chained hash key addr next (table.sweep keep) where
  placed := fun index other member => chained.placed index other (List.mem_of_mem_filter member)
  keys := fun index => (chained.keys index).filter _
  addrs := fun _ _ left right => chained.addrs _ _ (linked_sweep.mp left).1 (linked_sweep.mp right).1
  allocated := fun _ member => chained.allocated _ (linked_sweep.mp member).1

omit chained in
theorem mono {later : Nat} (chained : Chained hash key addr next table) (le : next ≤ later) :
    Chained hash key addr later table :=
  ⟨chained.placed, chained.keys, chained.addrs,
    fun record linked => (chained.allocated record linked).trans_le le⟩

end Chained

end

end Buckets

end ThrottleVpn.Foundation
