import Mathlib.Data.List.Induction
import Unformat.Plan.Cache
import Unformat.Proofs.Plan.Fitting

/-!
# What a bounded cache keeps

A use of a cache appends at most one key and removes keys at the front only.  So the keys stand in
the order in which they were put while absent, and a key stays for as long as the cache has room
for all that were put since.  The values and the counters follow use by use.
-/

namespace Unformat

namespace Cache

section Compared

variable {κ ν : Type}

theorem mem_of_mem_evict {cache : Cache κ ν} {entry : κ × ν}
    (kept : entry ∈ cache.evict.entries) : entry ∈ cache.entries :=
  List.mem_of_mem_drop kept

theorem mem_of_mem_resize {cache : Cache κ ν} {capacity : Nat} {entry : κ × ν}
    (kept : entry ∈ (cache.resize capacity).entries) : entry ∈ cache.entries := by
  unfold resize at kept
  have old := mem_of_mem_evict kept
  exact old

variable [BEq κ] {cache : Cache κ ν} {key : κ} {value : ν}

/-- What is found under a key is kept under one that compares equal. -/
theorem exists_of_get (hit : (cache.get key).1 = some value) :
    ∃ kept, (kept, value) ∈ cache.entries ∧ key == kept := by
  have search (entries : List (κ × ν)) (found : entries.lookup key = some value) :
      ∃ kept, (kept, value) ∈ entries ∧ key == kept := by
    induction entries with
    | nil => cases found
    | cons entry entries ih =>
        rw [List.lookup_cons] at found
        cases same : key == entry.1 with
        | true =>
            rw [same] at found
            cases found
            exact ⟨entry.1, List.mem_cons_self, same⟩
        | false =>
            rw [same] at found
            obtain ⟨kept, member, equal⟩ := ih found
            exact ⟨kept, List.mem_cons_of_mem _ member, equal⟩
  unfold get at hit
  cases present : cache.entries.lookup key with
  | some kept =>
      simp only [present] at hit
      exact search _ (present.trans hit)
  | none => simp [present] at hit

@[simp] theorem entries_get (cache : Cache κ ν) (key : κ) :
    (cache.get key).2.entries = cache.entries := by
  unfold get
  cases cache.entries.lookup key <;> rfl

/-- An entry is an old one, or the one that was put, or its value was put in place of another. -/
theorem cases_of_mem_put {entry : κ × ν} (kept : entry ∈ (cache.put key value).entries) :
    entry ∈ cache.entries ∨ entry = (key, value) ∨
      ∃ old ∈ cache.entries, old.1 == key ∧ entry = (old.1, value) := by
  unfold put at kept
  split at kept
  · obtain ⟨old, member, rfl⟩ := List.mem_map.mp kept
    cases same : old.1 == key with
    | true => exact .inr (.inr ⟨old, member, same, by simp⟩)
    | false => exact .inl (by simpa [same] using member)
  · rcases List.mem_append.mp (mem_of_mem_evict kept) with old | new
    · exact .inl old
    · exact .inr (.inl (List.mem_singleton.mp new))

end Compared

variable {κ ν : Type} [DecidableEq κ]

/-! ## Uses -/

/-- One use of a cache. -/
inductive Use (κ ν : Type) where
  | get (key : κ)
  | put (key : κ) (value : ν)
  | resize (capacity : Nat)
  | clear

def keys (cache : Cache κ ν) : List κ := cache.entries.map Prod.fst

/-- The cache after a use. -/
def use (cache : Cache κ ν) : Use κ ν → Cache κ ν
  | .get key => (cache.get key).2
  | .put key value => cache.put key value
  | .resize capacity => cache.resize capacity
  | .clear => cache.clear

def after (cache : Cache κ ν) (uses : List (Use κ ν)) : Cache κ ν := uses.foldl use cache

/-- The key that a use puts while it is absent, if it does. -/
def added (cache : Cache κ ν) : Use κ ν → List κ
  | .put key _ => if key ∈ cache.keys then [] else [key]
  | .get _ | .resize _ | .clear => []

/-- The keys that uses put while they were absent, the first one first. -/
def insertions (cache : Cache κ ν) : List (Use κ ν) → List κ
  | [] => []
  | next :: uses => cache.added next ++ insertions (cache.use next) uses

/-- The number of entries that a use drops by clearing the cache. -/
def dropped (cache : Cache κ ν) : Use κ ν → Nat
  | .clear => cache.size
  | .get _ | .put _ _ | .resize _ => 0

/-- The number of entries that uses drop by clearing the cache. -/
def cleared (cache : Cache κ ν) : List (Use κ ν) → Nat
  | [] => 0
  | next :: uses => cache.dropped next + cleared (cache.use next) uses

/-- The number of look-ups among uses. -/
def lookups : List (Use κ ν) → Nat
  | [] => 0
  | .get _ :: uses => lookups uses + 1
  | .put _ _ :: uses | .resize _ :: uses | .clear :: uses => lookups uses

/-- The capacity that uses leave. -/
def capacityAfter (capacity : Nat) : List (Use κ ν) → Nat
  | [] => capacity
  | .resize capacity :: uses => capacityAfter capacity uses
  | .get _ :: uses | .put _ _ :: uses | .clear :: uses => capacityAfter capacity uses

section Uses

variable (cache : Cache κ ν)

@[simp] theorem after_nil : cache.after [] = cache := rfl

@[simp] theorem after_cons (next : Use κ ν) (uses : List (Use κ ν)) :
    cache.after (next :: uses) = (cache.use next).after uses := rfl

@[simp] theorem after_append (uses more : List (Use κ ν)) :
    cache.after (uses ++ more) = (cache.after uses).after more :=
  List.foldl_append

@[simp] theorem insertions_nil : cache.insertions [] = [] := rfl

@[simp] theorem insertions_cons (next : Use κ ν) (uses : List (Use κ ν)) :
    cache.insertions (next :: uses) =
      cache.added next ++ (cache.use next).insertions uses := rfl

theorem insertions_append (uses more : List (Use κ ν)) :
    cache.insertions (uses ++ more) =
      cache.insertions uses ++ (cache.after uses).insertions more := by
  induction uses generalizing cache with
  | nil => rfl
  | cons next uses ih => simp [ih]

omit [DecidableEq κ] in
theorem length_keys : cache.keys.length = cache.size := List.length_map _

@[simp] theorem keys_get (key : κ) : (cache.get key).2.keys = cache.keys := by
  unfold get
  cases cache.entries.lookup key <;> rfl

omit [DecidableEq κ] in
@[simp] theorem keys_clear : cache.clear.keys = [] := rfl

end Uses

/-! ## One use -/

/-- A use lets the keys `gone` leave at the front, and lets none leave unless the cache is full. -/
structure Evicts (cache : Cache κ ν) (next : Use κ ν) (gone : List κ) : Prop where
  keys_eq : cache.keys ++ cache.added next = gone ++ (cache.use next).keys
  evictions_eq : (cache.use next).evictions = cache.evictions + gone.length
  filled : gone ≠ [] → (cache.use next).size = (cache.use next).capacity

omit [DecidableEq κ] in
/-- What exceeds the capacity leaves at the front. -/
theorem exists_keys_evict (full : Cache κ ν) :
    ∃ gone, full.keys = gone ++ full.evict.keys ∧
      full.evict.evictions = full.evictions + gone.length ∧
        (gone ≠ [] → full.evict.size = full.capacity) := by
  refine ⟨full.keys.take (full.size - full.capacity), ?_, ?_, ?_⟩
  · have rest : full.evict.keys = full.keys.drop (full.size - full.capacity) := List.map_drop
    rw [rest, List.take_append_drop]
  · have count : (full.keys.take (full.size - full.capacity)).length =
        full.size - full.capacity := by
      rw [List.length_take, length_keys]
      omega
    rw [count]
    rfl
  · intro some
    have excess : full.size - full.capacity ≠ 0 := by
      intro none
      exact some (by rw [none, List.take_zero])
    have rest : full.evict.size = full.size - (full.size - full.capacity) := List.length_drop
    omega

omit [DecidableEq κ] in
theorem size_evict_le (full : Cache κ ν) : full.evict.size ≤ full.capacity := by
  have rest : full.evict.size = full.size - (full.size - full.capacity) := List.length_drop
  omega

/-- The cache with an entry behind the others. -/
def append (cache : Cache κ ν) (key : κ) (value : ν) : Cache κ ν :=
  { cache with entries := cache.entries ++ [(key, value)] }

/-- The cache with another value for a key. -/
def replace (cache : Cache κ ν) (key : κ) (value : ν) : Cache κ ν :=
  { cache with
    entries := cache.entries.map fun entry => if entry.1 = key then (key, value) else entry }

theorem any_key_iff (cache : Cache κ ν) (key : κ) :
    cache.entries.any (·.1 == key) = true ↔ key ∈ cache.keys := by
  simp [keys, List.any_eq_true]

theorem put_of_mem {cache : Cache κ ν} {key : κ} (present : key ∈ cache.keys) (value : ν) :
    cache.put key value = cache.replace key value := by
  rw [put, if_pos ((any_key_iff cache key).mpr present), replace]
  congr 1
  refine List.map_congr_left fun entry _ => ?_
  by_cases same : entry.1 = key <;> simp [same]

theorem put_of_not_mem {cache : Cache κ ν} {key : κ} (absent : key ∉ cache.keys) (value : ν) :
    cache.put key value = (cache.append key value).evict :=
  if_neg (mt (any_key_iff cache key).mp absent)

theorem keys_replace (cache : Cache κ ν) (key : κ) (value : ν) :
    (cache.replace key value).keys = cache.keys := by
  unfold keys replace
  rw [List.map_map]
  apply List.map_congr_left
  intro entry _
  by_cases same : entry.1 = key <;> simp [same]

omit [DecidableEq κ] in
theorem keys_append (cache : Cache κ ν) (key : κ) (value : ν) :
    (cache.append key value).keys = cache.keys ++ [key] := by
  simp [keys, append]

theorem added_put_of_mem {cache : Cache κ ν} {key : κ} (present : key ∈ cache.keys) (value : ν) :
    cache.added (.put key value) = [] :=
  if_pos present

theorem added_put_of_not_mem {cache : Cache κ ν} {key : κ} (absent : key ∉ cache.keys)
    (value : ν) : cache.added (.put key value) = [key] :=
  if_neg absent

/-- Every use but clearing removes entries at the front only. -/
theorem exists_evicts (cache : Cache κ ν) {next : Use κ ν} (kept : next ≠ .clear) :
    ∃ gone, cache.Evicts next gone := by
  cases next with
  | get key =>
      refine ⟨[], ?_, ?_, by simp⟩
      · simp [added, use]
      · simp only [use, get]
        cases cache.entries.lookup key <;> rfl
  | put key value =>
      by_cases present : key ∈ cache.keys
      · refine ⟨[], ?_, ?_, by simp⟩
        · rw [added_put_of_mem present, use, put_of_mem present, keys_replace]
          simp
        · rw [use, put_of_mem present]
          rfl
      · obtain ⟨gone, split, counted, filled⟩ := exists_keys_evict (cache.append key value)
        rw [keys_append] at split
        refine ⟨gone, ?_, ?_, ?_⟩
        · rw [added_put_of_not_mem present, use, put_of_not_mem present, split]
        · rw [use, put_of_not_mem present, counted]
          rfl
        · rw [use, put_of_not_mem present]
          exact filled
  | resize capacity =>
      obtain ⟨gone, split, counted, filled⟩ := exists_keys_evict { cache with capacity }
      refine ⟨gone, ?_, counted, filled⟩
      rw [added, List.append_nil]
      exact split
  | clear => exact (kept rfl).elim

theorem size_use_le {cache : Cache κ ν} (fits : cache.size ≤ cache.capacity) (next : Use κ ν) :
    (cache.use next).size ≤ (cache.use next).capacity := by
  cases next with
  | get key =>
      simp only [use, get]
      cases cache.entries.lookup key <;> exact fits
  | put key value =>
      by_cases present : key ∈ cache.keys
      · rw [use, put_of_mem present, ← length_keys, keys_replace, length_keys]
        exact fits
      · rw [use, put_of_not_mem present]
        exact size_evict_le _
  | resize capacity => exact size_evict_le _
  | clear => exact Nat.zero_le _

theorem nodup_append_added {cache : Cache κ ν} (distinct : cache.keys.Nodup) (next : Use κ ν) :
    (cache.keys ++ cache.added next).Nodup := by
  cases next with
  | put key value =>
      by_cases present : key ∈ cache.keys
      · rw [added_put_of_mem present, List.append_nil]
        exact distinct
      · rw [added_put_of_not_mem present]
        exact List.nodup_append.mpr ⟨distinct, List.nodup_singleton _, by grind⟩
  | get | resize | clear => simpa [added] using distinct

/-- What a use leaves is a part at the end of what was there and what it adds. -/
theorem keys_use_suffix (cache : Cache κ ν) (next : Use κ ν) :
    (cache.use next).keys <:+ cache.keys ++ cache.added next := by
  by_cases kept : next = .clear
  · subst kept
    exact List.nil_suffix
  · obtain ⟨gone, evicts⟩ := cache.exists_evicts kept
    exact ⟨gone, evicts.keys_eq.symm⟩

theorem nodup_keys_use {cache : Cache κ ν} (distinct : cache.keys.Nodup) (next : Use κ ν) :
    (cache.use next).keys.Nodup :=
  (nodup_append_added distinct next).sublist (cache.keys_use_suffix next).sublist

/-! ## Values -/

theorem mem_of_get {cache : Cache κ ν} {key : κ} {value : ν}
    (hit : (cache.get key).1 = some value) : (key, value) ∈ cache.entries := by
  obtain ⟨kept, member, same⟩ := exists_of_get hit
  rwa [eq_of_beq same]

theorem eq_or_mem_of_mem_put {cache : Cache κ ν} {key : κ} {value : ν} {entry : κ × ν}
    (kept : entry ∈ (cache.put key value).entries) :
    entry = (key, value) ∨ entry ∈ cache.entries := by
  rcases cases_of_mem_put kept with old | rfl | ⟨_, _, same, rfl⟩
  · exact .inr old
  · exact .inl rfl
  · exact .inl (by rw [eq_of_beq same])

theorem eq_of_mem_put {cache : Cache κ ν} {key : κ} {value kept : ν}
    (member : (key, kept) ∈ (cache.put key value).entries) : kept = value := by
  by_cases present : key ∈ cache.keys
  · rw [put_of_mem present] at member
    obtain ⟨entry, _, changed⟩ := List.mem_map.mp member
    by_cases same : entry.1 = key
    · rw [if_pos same] at changed
      exact (congrArg Prod.snd changed).symm
    · rw [if_neg same] at changed
      exact (same (congrArg Prod.fst changed)).elim
  · rcases eq_or_mem_of_mem_put member with equal | old
    · exact congrArg Prod.snd equal
    · exact (present (List.mem_map.mpr ⟨(key, kept), old, rfl⟩)).elim

theorem get_eq_some_iff {cache : Cache κ ν} (distinct : cache.keys.Nodup) {key : κ} {value : ν} :
    (cache.get key).1 = some value ↔ (key, value) ∈ cache.entries := by
  constructor
  · exact mem_of_get
  · intro member
    have found : cache.entries.lookup key = some value :=
      Binding.lookup_eq_of_nodup distinct member
    simp [get, found]

theorem get_eq_none_iff {cache : Cache κ ν} {key : κ} :
    (cache.get key).1 = none ↔ key ∉ cache.keys := by
  have found : (cache.get key).1 = cache.entries.lookup key := by
    unfold get
    cases cache.entries.lookup key <;> rfl
  rw [found, List.lookup_eq_none_iff, keys, List.mem_map]
  grind

omit [DecidableEq κ] in
theorem exists_of_mem_keys {cache : Cache κ ν} {key : κ} (present : key ∈ cache.keys) :
    ∃ value, (key, value) ∈ cache.entries := by
  obtain ⟨⟨_, value⟩, member, rfl⟩ := List.mem_map.mp present
  exact ⟨value, member⟩

theorem get_put {cache : Cache κ ν} (distinct : cache.keys.Nodup) {key : κ} {value : ν}
    (present : key ∈ (cache.put key value).keys) :
    ((cache.put key value).get key).1 = some value := by
  obtain ⟨kept, member⟩ := exists_of_mem_keys present
  obtain rfl := eq_of_mem_put member
  exact (get_eq_some_iff (nodup_keys_use distinct (.put key kept))).mpr member

theorem mem_of_mem_use {cache : Cache κ ν} {next : Use κ ν} {key : κ} {value : ν}
    (other : ∀ value, next ≠ .put key value) (member : (key, value) ∈ (cache.use next).entries) :
    (key, value) ∈ cache.entries := by
  cases next with
  | get key => simpa [use] using member
  | put changed new =>
      rcases eq_or_mem_of_mem_put member with equal | old
      · cases equal
        exact (other value rfl).elim
      · exact old
  | resize capacity => exact mem_of_mem_resize member
  | clear => cases member

/-- A use other than a put of the key leaves its value alone, if it leaves the key. -/
theorem get_use {cache : Cache κ ν} (distinct : cache.keys.Nodup) {next : Use κ ν} {key : κ}
    (other : ∀ value, next ≠ .put key value) (present : key ∈ (cache.use next).keys) :
    ((cache.use next).get key).1 = (cache.get key).1 := by
  obtain ⟨value, member⟩ := exists_of_mem_keys present
  have before := (get_eq_some_iff distinct).mpr (mem_of_mem_use other member)
  have behind := (get_eq_some_iff (nodup_keys_use distinct next)).mpr member
  rw [before, behind]

/-! ## Counters -/

theorem hits_add_misses_use (cache : Cache κ ν) (next : Use κ ν) :
    (cache.use next).hits + (cache.use next).misses =
      cache.hits + cache.misses + lookups [next] := by
  cases next with
  | get key =>
      simp only [use, get, lookups]
      cases cache.entries.lookup key <;> simp <;> omega
  | put key value =>
      by_cases present : key ∈ cache.keys
      · rw [use, put_of_mem present]
        rfl
      · rw [use, put_of_not_mem present]
        rfl
  | resize | clear => rfl

/-- What a use adds is evicted, kept or dropped by clearing. -/
theorem accounts_use (cache : Cache κ ν) (next : Use κ ν) :
    (cache.use next).evictions + (cache.use next).size + cache.dropped next =
      cache.evictions + cache.size + (cache.added next).length := by
  by_cases kept : next = .clear
  · subst kept
    exact Nat.add_right_comm _ _ _
  · obtain ⟨gone, evicts⟩ := cache.exists_evicts kept
    have none : cache.dropped next = 0 := by
      cases next with
      | clear => exact (kept rfl).elim
      | get | put | resize => rfl
    have lengths := congrArg List.length evicts.keys_eq
    rw [List.length_append, List.length_append, length_keys, length_keys] at lengths
    rw [evicts.evictions_eq, none]
    omega

theorem capacity_use (cache : Cache κ ν) (next : Use κ ν) :
    (cache.use next).capacity = capacityAfter cache.capacity [next] := by
  cases next with
  | get key =>
      simp only [use, get]
      cases cache.entries.lookup key <;> rfl
  | put key value =>
      by_cases present : key ∈ cache.keys
      · rw [use, put_of_mem present]
        rfl
      · rw [use, put_of_not_mem present]
        rfl
  | resize | clear => rfl

/-! ## Runs -/

def start (capacity : Nat) : Cache κ ν := { capacity }

/-- The entries fit into the cache and have different keys. -/
structure WellKept (cache : Cache κ ν) : Prop where
  fits : cache.size ≤ cache.capacity
  distinct : cache.keys.Nodup

omit [DecidableEq κ] in
theorem wellKept_start (capacity : Nat) : (start capacity : Cache κ ν).WellKept where
  fits := Nat.zero_le _
  distinct := List.nodup_nil

theorem WellKept.use {cache : Cache κ ν} (kept : cache.WellKept) (next : Use κ ν) :
    (cache.use next).WellKept where
  fits := size_use_le kept.fits next
  distinct := nodup_keys_use kept.distinct next

theorem WellKept.after {cache : Cache κ ν} (kept : cache.WellKept) (uses : List (Use κ ν)) :
    (cache.after uses).WellKept := by
  induction uses generalizing cache with
  | nil => exact kept
  | cons next uses ih => exact ih (kept.use next)

theorem capacity_after (cache : Cache κ ν) (uses : List (Use κ ν)) :
    (cache.after uses).capacity = capacityAfter cache.capacity uses := by
  induction uses generalizing cache with
  | nil => rfl
  | cons next uses ih =>
      rw [after_cons, ih, capacity_use]
      cases next <;> rfl

theorem hits_add_misses_after (cache : Cache κ ν) (uses : List (Use κ ν)) :
    (cache.after uses).hits + (cache.after uses).misses =
      cache.hits + cache.misses + lookups uses := by
  induction uses generalizing cache with
  | nil => rfl
  | cons next uses ih =>
      have here := cache.hits_add_misses_use next
      have split : lookups (next :: uses) = lookups [next] + lookups uses := by
        cases next <;> simp [lookups, Nat.add_comm]
      rw [after_cons, ih, here, split, Nat.add_assoc]

theorem accounts_after (cache : Cache κ ν) (uses : List (Use κ ν)) :
    (cache.after uses).evictions + (cache.after uses).size + cache.cleared uses =
      cache.evictions + cache.size + (cache.insertions uses).length := by
  induction uses generalizing cache with
  | nil => rfl
  | cons next uses ih =>
      have here := cache.accounts_use next
      have later := ih (cache.use next)
      rw [after_cons, cleared, insertions_cons, List.length_append]
      omega

theorem keys_after_suffix (cache : Cache κ ν) (uses : List (Use κ ν)) :
    (cache.after uses).keys <:+ cache.keys ++ cache.insertions uses := by
  induction uses generalizing cache with
  | nil => simp
  | cons next uses ih =>
      have here : (cache.use next).keys ++ (cache.use next).insertions uses <:+
          cache.keys ++ cache.added next ++ (cache.use next).insertions uses :=
        List.suffix_append_self_iff.mpr (cache.keys_use_suffix next)
      rw [insertions_cons, ← List.append_assoc]
      exact (ih (cache.use next)).trans here

/-- After each of the uses there is room for all keys put by then while absent, and none of the uses
clears the cache. -/
def RoomThroughout (cache : Cache κ ν) (uses : List (Use κ ν)) : Prop :=
  ∀ part, part <+: uses → .clear ∉ part ∧
    (cache.insertions part).length ≤ (cache.after part).capacity

/-- Recent keys stay as long as there is room for them and for all that are put behind them. -/
theorem append_insertions_suffix {cache : Cache κ ν} {recent : List κ} {uses : List (Use κ ν)}
    (standing : recent <:+ cache.keys)
    (room : ∀ part, part <+: uses → .clear ∉ part ∧
      recent.length + (cache.insertions part).length ≤ (cache.after part).capacity) :
    recent ++ cache.insertions uses <:+ (cache.after uses).keys := by
  induction uses generalizing cache recent with
  | nil => simpa using standing
  | cons next uses ih =>
      obtain ⟨notCleared, bound⟩ := room [next] (by simp)
      obtain ⟨gone, evicts⟩ := cache.exists_evicts (Ne.symm (by simpa using notCleared))
      have here : recent ++ cache.added next <:+ (cache.use next).keys := by
        have whole : recent ++ cache.added next <:+ cache.keys ++ cache.added next :=
          List.suffix_append_self_iff.mpr standing
        rw [evicts.keys_eq] at whole
        by_cases none : gone = []
        · rwa [none] at whole
        · refine List.suffix_of_suffix_length_le whole (List.suffix_append _ _) ?_
          rw [length_keys, evicts.filled none]
          simpa using bound
      have later := ih here (by
        intro part within
        obtain ⟨kept, enough⟩ := room (next :: part) (by simpa using within)
        refine ⟨fun member => kept (List.mem_cons_of_mem _ member), ?_⟩
        simpa [Nat.add_assoc] using enough)
      simpa using later

theorem RoomThroughout.suffix {cache : Cache κ ν} {uses : List (Use κ ν)}
    (room : cache.RoomThroughout uses) : cache.insertions uses <:+ (cache.after uses).keys :=
  append_insertions_suffix List.nil_suffix (by simpa [RoomThroughout] using room)

theorem RoomThroughout.concat {cache : Cache κ ν} {uses : List (Use κ ν)} {next : Use κ ν}
    (room : cache.RoomThroughout uses) (kept : next ≠ .clear)
    (enough : (cache.insertions (uses ++ [next])).length ≤
      (cache.after (uses ++ [next])).capacity) : cache.RoomThroughout (uses ++ [next]) := by
  intro part within
  rcases List.prefix_concat_iff.mp within with whole | before
  · subst whole
    refine ⟨?_, enough⟩
    intro member
    rcases List.mem_append.mp member with member | member
    · exact (room uses List.prefix_rfl).1 member
    · exact kept (List.mem_singleton.mp member).symm
  · exact room part before

/-- A key was put while it was absent, and since then the cache has had room for it and all keys
that were put behind it. -/
def AmongNewest (cache : Cache κ ν) (uses : List (Use κ ν)) (key : κ) : Prop :=
  ∃ before value since, uses = before ++ .put key value :: since ∧
    key ∉ (cache.after before).keys ∧
      (cache.after before).RoomThroughout (.put key value :: since)

/-- What stays over a use leaves all that was put behind it in the cache. -/
theorem length_le_of_mem_use {cache : Cache κ ν} (kept : cache.WellKept) {key : κ}
    {behind : List κ} (standing : key :: behind <:+ cache.keys) {next : Use κ ν}
    (stays : key ∈ (cache.use next).keys) :
    (key :: behind ++ cache.added next).length ≤ (cache.use next).capacity := by
  have whole : key :: (behind ++ cache.added next) <:+ cache.keys ++ cache.added next :=
    List.suffix_append_self_iff.mpr standing
  have distinct : key ∉ behind ++ cache.added next :=
    (List.nodup_cons.mp ((nodup_append_added kept.distinct next).sublist whole.sublist)).1
  have bound := (kept.use next).fits
  rw [← length_keys] at bound
  by_contra tooMany
  have fewer : (cache.use next).keys.length ≤ (behind ++ cache.added next).length := by
    simp only [List.length_append, List.length_cons] at tooMany ⊢
    omega
  have within := List.suffix_of_suffix_length_le (cache.keys_use_suffix next)
    ((List.suffix_cons _ _).trans whole) fewer
  exact distinct (within.subset stays)

theorem AmongNewest.of_mem {cache : Cache κ ν} (empty : cache.keys = [])
    (kept : cache.WellKept) {uses : List (Use κ ν)} {key : κ}
    (present : key ∈ (cache.after uses).keys) : cache.AmongNewest uses key := by
  induction uses using List.reverseRecOn with
  | nil => simp [empty] at present
  | append_singleton uses next ih =>
      rw [after_append, after_cons, after_nil] at present
      have notCleared : next ≠ .clear := by
        rintro rfl
        simp [use] at present
      by_cases old : key ∈ (cache.after uses).keys
      · obtain ⟨before, value, since, rfl, absent, room⟩ := ih old
        refine ⟨before, value, since ++ [next], by simp, absent, ?_⟩
        have standing := room.suffix
        have first : (cache.after before).insertions (.put key value :: since) =
            key :: (((cache.after before).use (.put key value)).insertions since) := by
          rw [insertions_cons, added_put_of_not_mem absent, List.singleton_append]
        rw [first, ← after_append] at standing
        have enough := length_le_of_mem_use (kept.after _) standing present
        refine room.concat notCleared ?_
        rw [insertions_append, first, insertions_cons, insertions_nil, List.append_nil,
          after_append, ← after_append cache]
        exact enough
      · have new : key ∈ (cache.after uses).added next := by
          rcases List.mem_append.mp ((keys_use_suffix _ next).subset present) with member | member
          · exact (old member).elim
          · exact member
        cases next with
        | put other value =>
            by_cases same : other ∈ (cache.after uses).keys
            · simp [added_put_of_mem same] at new
            · rw [added_put_of_not_mem same, List.mem_singleton] at new
              subst new
              refine ⟨uses, value, [], rfl, same, ?_⟩
              have none : (cache.after uses).RoomThroughout [] := by
                intro part within
                obtain rfl := List.prefix_nil.mp within
                simp
              refine none.concat notCleared ?_
              have solid := List.length_pos_of_mem present
              rw [length_keys] at solid
              have fits := ((kept.after uses).use (.put key value)).fits
              rw [List.nil_append, insertions_cons, added_put_of_not_mem same]
              exact Nat.le_trans solid fits
        | get | resize | clear => cases new

theorem AmongNewest.mem {cache : Cache κ ν} {uses : List (Use κ ν)} {key : κ}
    (newest : cache.AmongNewest uses key) : key ∈ (cache.after uses).keys := by
  obtain ⟨before, value, since, rfl, absent, room⟩ := newest
  rw [after_append]
  apply room.suffix.subset
  simp [added_put_of_not_mem absent]

/-- A value was put under a key, no other was put under it since, and the key has been there ever
since. -/
def LastPut (cache : Cache κ ν) (uses : List (Use κ ν)) (key : κ) (value : ν) : Prop :=
  ∃ before since, uses = before ++ .put key value :: since ∧ (∀ other, .put key other ∉ since) ∧
    ∀ part, part <+: since → key ∈ (cache.after (before ++ .put key value :: part)).keys

theorem LastPut.of_get {cache : Cache κ ν} (empty : cache.keys = []) (kept : cache.WellKept)
    {uses : List (Use κ ν)} {key : κ} {value : ν}
    (found : ((cache.after uses).get key).1 = some value) : cache.LastPut uses key value := by
  induction uses using List.reverseRecOn with
  | nil =>
      have none : (cache.get key).1 = none := get_eq_none_iff.mpr (by simp [empty])
      rw [after_nil, none] at found
      cases found
  | append_singleton uses next ih =>
      rw [after_append, after_cons, after_nil] at found
      have present : key ∈ ((cache.after uses).use next).keys :=
        List.mem_map.mpr ⟨(key, value), mem_of_get found, rfl⟩
      have distinct := (kept.after uses).distinct
      by_cases here : ∃ new, next = .put key new
      · obtain ⟨new, rfl⟩ := here
        obtain rfl : new = value := Option.some.inj ((get_put distinct present).symm.trans found)
        refine ⟨uses, [], rfl, by simp, ?_⟩
        intro part within
        obtain rfl := List.prefix_nil.mp within
        rw [after_append]
        exact present
      · have other : ∀ new, next ≠ .put key new := not_exists.mp here
        rw [get_use distinct other present] at found
        obtain ⟨before, since, rfl, untouched, standing⟩ := ih found
        refine ⟨before, since ++ [next], by simp, ?_, ?_⟩
        · intro new member
          rcases List.mem_append.mp member with member | member
          · exact untouched new member
          · exact other new (List.mem_singleton.mp member).symm
        · intro part within
          rcases List.prefix_concat_iff.mp within with whole | earlier
          · subst whole
            rw [← List.cons_append, ← List.append_assoc, after_append]
            exact present
          · exact standing part earlier

theorem LastPut.get {cache : Cache κ ν} (kept : cache.WellKept) {uses : List (Use κ ν)} {key : κ}
    {value : ν} (last : cache.LastPut uses key value) :
    ((cache.after uses).get key).1 = some value := by
  obtain ⟨before, since, rfl, untouched, standing⟩ := last
  induction since using List.reverseRecOn with
  | nil =>
      have present := standing [] List.prefix_rfl
      rw [after_append] at present ⊢
      exact get_put (kept.after before).distinct present
  | append_singleton since next ih =>
      have present := standing (since ++ [next]) List.prefix_rfl
      have other : ∀ new, next ≠ .put key new := by
        rintro new rfl
        exact untouched new (by simp)
      have earlier := ih (fun new member => untouched new (List.mem_append_left _ member))
        fun part within => standing part (within.trans (List.prefix_append _ _))
      rw [← List.cons_append, ← List.append_assoc, after_append] at present ⊢
      rw [after_cons, after_nil] at present ⊢
      rw [get_use (kept.after _).distinct other present]
      exact earlier

/-- Putting a key that is there changes its value and nothing else. -/
structure Replaces (cache after : Cache κ ν) (key : κ) (value : ν) : Prop where
  keys_eq : after.keys = cache.keys
  found : ∀ other, (after.get other).1 = if other = key then some value else (cache.get other).1
  capacity_eq : after.capacity = cache.capacity
  hits_eq : after.hits = cache.hits
  misses_eq : after.misses = cache.misses
  evictions_eq : after.evictions = cache.evictions

theorem replaces_put {cache : Cache κ ν} (distinct : cache.keys.Nodup) {key : κ}
    (present : key ∈ cache.keys) (value : ν) :
    cache.Replaces (cache.put key value) key value := by
  have same : (cache.put key value).keys = cache.keys := by
    rw [put_of_mem present, keys_replace]
  refine ⟨same, ?_, ?_, ?_, ?_, ?_⟩
  · intro other
    by_cases equal : other = key
    · subst equal
      rw [if_pos rfl]
      exact get_put distinct (same ▸ present)
    · rw [if_neg equal]
      by_cases there : other ∈ cache.keys
      · have different : ∀ new, (.put key value : Use κ ν) ≠ .put other new := by
          intro new changed
          cases changed
          exact equal rfl
        have stays : other ∈ (cache.use (.put key value)).keys := same.symm ▸ there
        exact get_use distinct different stays
      · rw [get_eq_none_iff.mpr there, get_eq_none_iff, same]
        exact there
  all_goals
    rw [put_of_mem present]
    rfl

/-- A bounded map that lets the oldest entry go first: what has become of a new cache. -/
structure FirstInFirstOut (capacity : Nat) (uses : List (Use κ ν)) (cache : Cache κ ν) :
    Prop where
  capacity_eq : cache.capacity = capacityAfter capacity uses
  fits : cache.size ≤ cache.capacity
  distinct : cache.keys.Nodup
  /-- The keys stand in the order in which they were put while absent, the last of them last. -/
  inOrder : cache.keys <:+ (start capacity).insertions uses
  /-- They are the newest ones that fit. -/
  mem_keys_iff : ∀ key, key ∈ cache.keys ↔ (start capacity).AmongNewest uses key
  /-- What leaves but for clearing leaves at the old end, and when the cache is full. -/
  oldestLeave : ∀ next, next ≠ .clear → ∃ gone, cache.Evicts next gone
  get_iff : ∀ key value,
    (cache.get key).1 = some value ↔ (start capacity).LastPut uses key value
  entries_get : ∀ key, (cache.get key).2.entries = cache.entries
  put_present : ∀ key value, key ∈ cache.keys → cache.Replaces (cache.put key value) key value
  lookups_eq : cache.hits + cache.misses = lookups uses
  accounts : cache.evictions + cache.size + (start capacity).cleared uses =
    ((start capacity).insertions uses).length

/-- Whatever uses are made of a new cache, it is a bounded map that lets the oldest entry go
first. -/
theorem firstInFirstOut_after (capacity : Nat) (uses : List (Use κ ν)) :
    FirstInFirstOut capacity uses ((start capacity).after uses) := by
  have kept : (start capacity : Cache κ ν).WellKept := wellKept_start capacity
  have reached := kept.after uses
  exact {
    capacity_eq := capacity_after _ uses
    fits := reached.fits
    distinct := reached.distinct
    inOrder := keys_after_suffix _ uses
    mem_keys_iff := fun key => ⟨AmongNewest.of_mem rfl kept, AmongNewest.mem⟩
    oldestLeave := fun next notCleared => exists_evicts _ notCleared
    get_iff := fun key value => ⟨LastPut.of_get rfl kept, LastPut.get kept⟩
    entries_get := Cache.entries_get _
    put_present := fun key value present => replaces_put reached.distinct present value
    lookups_eq := (hits_add_misses_after _ uses).trans (Nat.zero_add _)
    accounts := (accounts_after _ uses).trans (Nat.zero_add _) }

end Cache

end Unformat
