import ThrottleVpn.Foundation.Buckets

/-! A chained hash table read as a map from keys to records.

Each operation on the chains is an update of the map at one key, except the sweep,
which filters the whole map.
-/

set_option autoImplicit false

namespace ThrottleVpn.Foundation.Buckets

variable {size : Nat} {Record Key : Type} [DecidableEq Key] {hash : Key → Fin size} {key : Record → Key}
  {addr : Record → Nat} {next : Nat} {table : Buckets size Record}

def lookup (hash : Key → Fin size) (key : Record → Key) (table : Buckets size Record) (wanted : Key) :
    Option Record :=
  (table (hash wanted)).find? fun record => decide (key record = wanted)

namespace Chained
variable (chained : Chained hash key addr next table)
include chained

theorem lookup_eq_some_iff {wanted : Key} {record : Record} :
    lookup hash key table wanted = some record ↔ table.Linked record ∧ key record = wanted :=
  chained.find_eq_some_iff

theorem lookup_eq_none_iff {wanted : Key} :
    lookup hash key table wanted = none ↔ ∀ record, table.Linked record → key record ≠ wanted :=
  chained.find_eq_none_iff

theorem lookup_linked {record : Record} (linked : table.Linked record) :
    lookup hash key table (key record) = some record := chained.lookup_eq_some_iff.mpr ⟨linked, rfl⟩

theorem lookup_congr {other : Buckets size Record} {later : Nat} (also : Chained hash key addr later other)
    {wanted : Key} (same : ∀ record, key record = wanted → (other.Linked record ↔ table.Linked record)) :
    lookup hash key other wanted = lookup hash key table wanted := by
  apply Option.ext
  intro record
  rw [also.lookup_eq_some_iff, chained.lookup_eq_some_iff]
  constructor
  · exact fun ⟨linked, hit⟩ => ⟨(same record hit).mp linked, hit⟩
  · exact fun ⟨linked, hit⟩ => ⟨(same record hit).mpr linked, hit⟩

theorem lookup_push (record : Record) (absent : lookup hash key table (key record) = none)
    (fresh : addr record = next) :
    lookup hash key (table.push (hash (key record)) record) =
      Function.update (lookup hash key table) (key record) (some record) := by
  have pushed := chained.push record (chained.lookup_eq_none_iff.mp absent) fresh
  funext wanted
  by_cases here : wanted = key record
  · subst here
    rw [Function.update_self, pushed.lookup_linked (linked_push.mpr (.inl rfl))]
  · rw [Function.update_of_ne here]
    apply chained.lookup_congr pushed
    intro other hit
    rw [linked_push, or_iff_right]
    rintro rfl
    exact here hit.symm

theorem lookup_unlink {target : Record} (linked : table.Linked target) :
    lookup hash key (table.unlink addr (hash (key target)) (addr target)) =
      Function.update (lookup hash key table) (key target) none := by
  have unlinked := chained.unlink linked
  funext wanted
  by_cases here : wanted = key target
  · subst here
    rw [Function.update_self, unlinked.lookup_eq_none_iff]
    intro other remains same
    obtain ⟨before, different⟩ := (chained.linked_unlink linked).mp remains
    exact different (chained.key_unique before linked same)
  · rw [Function.update_of_ne here]
    apply chained.lookup_congr unlinked
    intro other hit
    rw [chained.linked_unlink linked, and_iff_left]
    rintro rfl
    exact here hit.symm

theorem lookup_store {old : Record} (linked : table.Linked old) (record : Record)
    (sameAddr : addr record = addr old) (sameKey : key record = key old) :
    lookup hash key (table.store addr record) = Function.update (lookup hash key table) (key old)
      (some record) := by
  have stored := chained.store record linked sameAddr sameKey
  funext wanted
  by_cases here : wanted = key old
  · subst here
    rw [Function.update_self, stored.lookup_eq_some_iff]
    exact ⟨(chained.linked_store record linked sameAddr).mpr (.inl rfl), sameKey⟩
  · rw [Function.update_of_ne here]
    apply chained.lookup_congr stored
    intro other hit
    have notNew : other ≠ record := by
      rintro rfl
      exact here (hit.symm.trans sameKey)
    have notOld : other ≠ old := by
      rintro rfl
      exact here hit.symm
    rw [chained.linked_store record linked sameAddr, or_iff_right notNew, and_iff_left notOld]

theorem lookup_sweep (keep : Record → Bool) :
    lookup hash key (table.sweep keep) = fun wanted => (lookup hash key table wanted).filter keep := by
  have swept := chained.sweep keep
  funext wanted
  apply Option.ext
  intro record
  rw [swept.lookup_eq_some_iff, linked_sweep, Option.filter_eq_some_iff, chained.lookup_eq_some_iff,
    and_right_comm]

end Chained

end ThrottleVpn.Foundation.Buckets
