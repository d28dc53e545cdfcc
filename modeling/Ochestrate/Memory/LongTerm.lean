import Ochestrate.Memory.Service
import Ochestrate.Auth.Service

/-!
# Long-term memory

`app/memory/long_term.py` and the long-term half of `app/memory/service.py`:
records with a time of expiry, kept in the order in which they were added and
never removed. A search returns the first of a user's records that match and
have not expired, so it returns old records before new ones: once it is full it
stays what it is until one of its records expires (`search_of_prefix`).
-/

namespace Ochestrate

structure MemoryRecord where
  tenantId : String
  userId : String
  content : String
  tags : List String
  createdAt : Time
  expiresAt : Time
  deriving DecidableEq

structure LongTermMemoryStore where
  defaultTtlDays : Int
  records : List MemoryRecord := []
  deriving DecidableEq

namespace LongTermMemoryStore

variable (lower : String → String)

/-- The record that `add` appends at a time. -/
def newRecord (store : LongTermMemoryStore) (now : Time) (tenantId userId content : String)
    (tags : Option (List String)) (ttlDays : Option Int) : MemoryRecord where
  tenantId
  userId
  content
  tags := tags.getD []
  createdAt := now
  expiresAt := now + ttlDays.getD store.defaultTtlDays * 86400 * second

def add (store : LongTermMemoryStore) (now : Time) (tenantId userId content : String)
    (tags : Option (List String) := none) (ttlDays : Option Int := none) : LongTermMemoryStore × MemoryRecord :=
  let record := store.newRecord now tenantId userId content tags ttlDays
  ({ store with records := store.records ++ [record] }, record)

/-- The condition of `search` on a record. -/
def isValid (now : Time) (tenantId userId normalized : String) (record : MemoryRecord) : Bool :=
  record.tenantId = tenantId && record.userId = userId && now < record.expiresAt &&
    (containsText normalized (lower record.content) || normalized = "")

def search (store : LongTermMemoryStore) (now : Time) (tenantId userId query : String) (limit : Int := 5) :
    List MemoryRecord :=
  let normalized := lower query
  sliceTo limit (store.records.filter (isValid lower now tenantId userId normalized))

end LongTermMemoryStore

namespace MemoryService

variable (lower : String → String)

def writeLong (store : LongTermMemoryStore) (now : Time) (tenantId userId content : String)
    (tags : Option (List String) := none) (ttlDays : Option Int := none) : LongTermMemoryStore × MemoryUpdate :=
  ((store.add now tenantId userId content tags ttlDays).1, { memoryType := .long, content })

def readLong (store : LongTermMemoryStore) (now : Time) (tenantId userId query : String) (limit : Int := 5) :
    List String :=
  (store.search lower now tenantId userId query limit).map (·.content)

end MemoryService

namespace LongTermMemoryStore

/-! ## Results that stay -/

variable {lower : String → String}

/-- What is valid later was valid before. -/
theorem isValid_of_le {now now' : Time} (h : now ≤ now') {tenantId userId normalized : String} {record : MemoryRecord}
    (hvalid : isValid lower now' tenantId userId normalized record = true) :
    isValid lower now tenantId userId normalized record = true := by
  simp only [isValid, Bool.and_eq_true, decide_eq_true_eq] at hvalid ⊢
  obtain ⟨⟨howner, hexpires⟩, hmatch⟩ := hvalid
  exact ⟨⟨howner, h.trans_lt hexpires⟩, hmatch⟩

/-- A record that was valid is valid until it expires. -/
theorem isValid_of_lt {now now' : Time} {tenantId userId normalized : String} {record : MemoryRecord}
    (hvalid : isValid lower now tenantId userId normalized record = true) (h : now' < record.expiresAt) :
    isValid lower now' tenantId userId normalized record = true := by
  simp only [isValid, Bool.and_eq_true, decide_eq_true_eq] at hvalid ⊢
  obtain ⟨⟨howner, -⟩, hmatch⟩ := hvalid
  exact ⟨⟨howner, h⟩, hmatch⟩

/-- The first `n` that satisfy `p` are the first `n` that satisfy `q`, where `q`
is stronger, holds of these, and the list may be longer. -/
theorem take_filter_of_prefix {α : Type} {p q : α → Bool} {n : Nat} {xs ys : List α} (hrecords : xs <+: ys)
    (hsub : ∀ x, q x = true → p x = true) (hkept : ∀ x ∈ (xs.filter p).take n, q x = true)
    (hfull : ((xs.filter p).take n).length = n) : (ys.filter q).take n = (xs.filter p).take n := by
  obtain ⟨rest, rfl⟩ := hrecords
  have hfilter : xs.filter q = (xs.filter p).filter q := by
    rw [List.filter_filter]
    refine List.filter_congr fun x _ => ?_
    cases hq : q x with
    | false => rfl
    | true => rw [hsub x hq]; rfl
  have hfirst : ((xs.filter p).take n).filter q = (xs.filter p).take n := List.filter_eq_self.2 hkept
  have hxs : xs.filter q = (xs.filter p).take n ++ ((xs.filter p).drop n).filter q := by
    conv_lhs => rw [hfilter, ← List.take_append_drop n (xs.filter p), List.filter_append, hfirst]
  rw [List.filter_append, hxs, List.append_assoc, List.take_append_of_le_length hfull.ge, List.take_of_length_le hfull.le]

/-- A full result stays as it is while its records are valid, whatever is added. -/
theorem search_of_prefix {store store' : LongTermMemoryStore} (hrecords : store.records <+: store'.records)
    {now now' : Time} (h : now ≤ now') {tenantId userId query : String} (limit : Nat)
    (hfull : (store.search lower now tenantId userId query limit).length = limit)
    (hvalid : ∀ record ∈ store.search lower now tenantId userId query limit, now' < record.expiresAt) :
    store'.search lower now' tenantId userId query limit = store.search lower now tenantId userId query limit := by
  unfold search at *
  dsimp only at *
  rw [sliceTo_of_nonneg (Int.natCast_nonneg limit), Int.toNat_natCast] at hfull hvalid ⊢
  rw [sliceTo_of_nonneg (Int.natCast_nonneg limit), Int.toNat_natCast]
  refine take_filter_of_prefix hrecords (fun record => isValid_of_le h) (fun record hmem => ?_) hfull
  exact isValid_of_lt (List.mem_filter.1 (List.mem_of_mem_take hmem)).2 (hvalid record hmem)

end LongTermMemoryStore

end Ochestrate
