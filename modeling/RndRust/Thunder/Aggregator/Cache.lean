import RndRust.Lib.Takers
import RndRust.Thunder.Aggregator.Routing

/-! The disk cache of the aggregator, `cache.rs`: the pools of the index one after the other, each with its
length, and a length of zero at the end. What bincode and `into_pool_entry` make of the data of one pool is a
parameter. -/
namespace RndRust.Thunder.Aggregator
open Lib

/-- A `PoolEntry` with its data for the cache. -/
structure FiledEntry extends PoolEntry where
  cachedData : Bytes

/-- `CACHE_VERSION`. -/
def cacheVersion : ℕ := 1

structure CacheHeader where
  version : ℕ
  timestamp : ℕ
  poolCount : ℕ
  deriving DecidableEq, Repr

inductive CacheError where
  /-- A read past the end of the file. -/
  | io
  | bincode
  /-- Cache version mismatch. -/
  | version (file : ℕ)
  deriving DecidableEq, Repr

namespace CacheHeader

/-- `bincode::serialize`: the fields in order, little-endian. -/
def serialize (header : CacheHeader) : Bytes :=
  toLeBytes 4 header.version ++ toLeBytes 8 header.timestamp ++ toLeBytes 8 header.poolCount

/-- `bincode::deserialize`, which allows trailing bytes. -/
def deserialize (bytes : Bytes) : Option CacheHeader :=
  if 20 ≤ bytes.length then
    some ⟨fromLeBytes (bytes.take 4), fromLeBytes ((bytes.drop 4).take 8), fromLeBytes ((bytes.drop 12).take 8)⟩
  else none

end CacheHeader

/-- The data of a pool after its length. -/
def cacheRecord (data : Bytes) : Bytes := toLeBytes 4 data.length ++ data

/-- The file that `save_cache` writes for pools in the order of `iter_pools`. -/
def saveCache (pools : List (String × FiledEntry)) (now : ℕ) : Bytes :=
  let records := (pools.map fun pool => pool.2.cachedData).filter fun data => data ≠ []
  cacheRecord (CacheHeader.serialize ⟨cacheVersion, now, records.length⟩) ++ records.flatMap cacheRecord ++ toLeBytes 4 0

/-- `read_exact` of four bytes. -/
def takeLength : Taker UInt8 CacheError ℕ := (Taker.exactly 4 .io).bind fun bytes => .pure (fromLeBytes bytes)

/-- The header, with the check of its version. -/
def takeHeader : Taker UInt8 CacheError CacheHeader :=
  takeLength.bind fun length => (Taker.exactly length .io).bind fun bytes =>
    match CacheHeader.deserialize bytes with
    | none => .fail .bincode
    | some header => if header.version ≠ cacheVersion then .fail (.version header.version) else .pure header

/-- One turn of the loop of `load_cache`: `none` at the sentinel. -/
def takeRecord : Taker UInt8 CacheError (Option Bytes) :=
  takeLength.bind fun length =>
    if length = 0 then .pure none else (Taker.exactly length .io).bind fun data => .pure (some data)

section Reading

variable {input rest data : Bytes} {n : ℕ}

theorem takeLength_toLeBytes (fits : n < 256 ^ 4) : takeLength.take (toLeBytes 4 n ++ rest) = .ok (n, rest) := by
  rw [takeLength, Taker.take_bind (Taker.take_exactly length_toLeBytes), Taker.take_pure, fromLeBytes_toLeBytes fits]

theorem takeRecord_takes : takeRecord.Takes := by
  intro input data rest took
  obtain ⟨length, between, first, later⟩ := Taker.bind_ok took
  obtain ⟨four, between', read, same⟩ := Taker.bind_ok first
  obtain ⟨size, rfl⟩ := Taker.exactly_ok read
  cases same
  have shorter := Taker.rest_le later
  rw [List.length_append]
  omega

/-- The whole file, up to the sentinel. -/
def takeCache : Taker UInt8 CacheError (CacheHeader × List Bytes) :=
  takeHeader.bind fun header => (takeRecord.all takeRecord_takes).bind fun records => .pure (header, records)

end Reading

/-- `load_cache`: the pools that are added to the index, in order, and the timestamp. Records that bincode
refuses are skipped. -/
def loadCache (restore : Bytes → Option (String × FiledEntry)) (file : Bytes) :
    Except CacheError (List (String × FiledEntry) × ℕ) :=
  (takeCache.take file).map fun read => (read.1.2.filterMap restore, read.1.1.timestamp)

/-- `cache_age`, which looks at the header only. -/
def cacheAge (file : Bytes) (now : ℕ) : Option ℕ :=
  match (takeLength.bind fun length => Taker.exactly length .io).take file with
  | .ok (bytes, _) => (CacheHeader.deserialize bytes).map fun header => now - header.timestamp
  | .error _ => none

/-- The index of a list of pools. -/
def filedIndex (pools : List (String × FiledEntry)) : PoolIndex :=
  PoolIndex.ofPools (pools.map fun pool => (pool.1, pool.2.toPoolEntry))

/-- The pools of an index, in some order of the map. -/
structure Iterates (index : PoolIndex) (pools : List (String × FiledEntry)) : Prop where
  once : (pools.map Prod.fst).Nodup
  pools : ∀ address entry, index.pools address = some entry ↔ (address, entry) ∈ pools.map fun p => (p.1, p.2.toPoolEntry)

section Saving

variable {pools added : List (String × FiledEntry)} {records : List Bytes} {now : ℕ} {rest : Bytes}
  {restore : Bytes → Option (String × FiledEntry)} {header : CacheHeader}

theorem deserialize_serialize (version : header.version < 256 ^ 4) (timestamp : header.timestamp < 256 ^ 8)
    (count : header.poolCount < 256 ^ 8) : CacheHeader.deserialize header.serialize = some header := by
  have first : header.serialize.take 4 = toLeBytes 4 header.version := by
    simp [CacheHeader.serialize, List.append_assoc]
  have second : (header.serialize.drop 4).take 8 = toLeBytes 8 header.timestamp := by
    simp [CacheHeader.serialize]
  have third : (header.serialize.drop 12).take 8 = toLeBytes 8 header.poolCount := by
    have past : (toLeBytes 4 header.version).drop 12 = [] := List.drop_eq_nil_of_le (by simp)
    simp [CacheHeader.serialize, List.drop_append, past]
  rw [CacheHeader.deserialize, if_pos (by simp [CacheHeader.serialize]), first, second, third,
    fromLeBytes_toLeBytes version, fromLeBytes_toLeBytes timestamp, fromLeBytes_toLeBytes count]

theorem takeHeader_saved (timestamp : now < 256 ^ 8) (count : records.length < 256 ^ 8) :
    takeHeader.take (cacheRecord (CacheHeader.serialize ⟨cacheVersion, now, records.length⟩) ++ rest) =
      .ok (⟨cacheVersion, now, records.length⟩, rest) := by
  have length : (CacheHeader.serialize ⟨cacheVersion, now, records.length⟩).length = 20 := by
    simp [CacheHeader.serialize]
  rw [cacheRecord, List.append_assoc, takeHeader, Taker.take_bind (takeLength_toLeBytes (by rw [length]; decide)),
    Taker.take_bind (Taker.take_exactly rfl), deserialize_serialize (by simp [cacheVersion]) timestamp count]
  simp

theorem takeRecord_record {data : Bytes} (some' : data ≠ []) (small : data.length < 256 ^ 4) :
    takeRecord.take (cacheRecord data ++ rest) = .ok (some data, rest) := by
  rw [cacheRecord, List.append_assoc, takeRecord, Taker.take_bind (takeLength_toLeBytes small),
    if_neg (by simpa using some'), Taker.take_bind (Taker.take_exactly rfl), Taker.take_pure]

theorem takeRecords_saved (small : ∀ data ∈ records, data ≠ [] ∧ data.length < 256 ^ 4) :
    takeRecord.takeAll takeRecord_takes (records.flatMap cacheRecord ++ (toLeBytes 4 0 ++ rest)) = .ok (records, rest) := by
  induction records with
  | nil =>
    refine Taker.takeAll_nil ?_
    rw [List.flatMap_nil, List.nil_append, takeRecord, Taker.take_bind (takeLength_toLeBytes (by decide)), if_pos rfl,
      Taker.take_pure]
  | cons data more ih =>
    obtain ⟨some', short⟩ := small data List.mem_cons_self
    rw [List.flatMap_cons, List.append_assoc]
    exact Taker.takeAll_cons (takeRecord_record some' short)
      (ih fun data listed => small data (List.mem_cons_of_mem _ listed))

theorem takeCache_saved (filed : ∀ p ∈ pools, p.2.cachedData ≠ [] ∧ p.2.cachedData.length < 2 ^ 32)
    (time : now < 2 ^ 64) (count : pools.length < 2 ^ 64) : takeCache.take (saveCache pools now) =
      .ok ((⟨cacheVersion, now, pools.length⟩, pools.map fun p => p.2.cachedData), []) := by
  have whole : ((pools.map fun p => p.2.cachedData).filter fun data => data ≠ []) = pools.map fun p => p.2.cachedData := by
    refine List.filter_eq_self.mpr fun data listed => ?_
    obtain ⟨p, among, rfl⟩ := List.mem_map.mp listed
    simpa using (filed p among).1
  have small : ∀ data ∈ pools.map fun p => p.2.cachedData, data ≠ [] ∧ data.length < 256 ^ 4 := by
    intro data listed
    obtain ⟨p, among, rfl⟩ := List.mem_map.mp listed
    exact filed p among
  have length : (pools.map fun p => p.2.cachedData).length = pools.length := List.length_map _
  rw [saveCache, whole, List.append_assoc, takeCache,
    Taker.take_bind (takeHeader_saved time (length.symm ▸ count)), length]
  have records := @takeRecords_saved _ [] small
  rw [List.append_nil] at records
  exact Taker.take_bind records

end Saving

section Index

variable {added pools : List (String × PoolEntry)} {mint : Pubkey} {dex address : String} {entry : PoolEntry}

/-- The edges that a pool adds at a mint. -/
def edgesAt (mint : Pubkey) (pool : String × PoolEntry) : List Edge :=
  (if pool.2.quoteMint = mint then [⟨pool.2.baseMint, pool.1⟩] else []) ++
    if pool.2.baseMint = mint then [⟨pool.2.quoteMint, pool.1⟩] else []

theorem ofPools_append (pool : String × PoolEntry) :
    PoolIndex.ofPools (added ++ [pool]) = (PoolIndex.ofPools added).addPool pool.1 pool.2 := by
  rw [PoolIndex.ofPools, List.foldl_append]
  rfl

theorem ofPools_edges : (PoolIndex.ofPools added).edges mint = added.flatMap (edgesAt mint) := by
  induction added using List.reverseRecOn with
  | nil => rfl
  | append_singleton before pool ih =>
    rw [ofPools_append, List.flatMap_append, ← ih]
    simp only [PoolIndex.addPool, PoolRegistry.push, Function.update_apply, edgesAt, List.flatMap_cons, List.flatMap_nil,
      List.append_nil]
    grind

theorem ofPools_dexCounts : (PoolIndex.ofPools added).dexCounts dex = added.countP fun pool => pool.2.dexName = dex := by
  induction added using List.reverseRecOn with
  | nil => rfl
  | append_singleton before pool ih =>
    rw [ofPools_append, List.countP_append, ← ih]
    simp only [PoolIndex.addPool, Function.update_apply, List.countP_cons, List.countP_nil]
    grind

theorem ofPools_pools (distinct : (added.map Prod.fst).Nodup) :
    (PoolIndex.ofPools added).pools address = some entry ↔ (address, entry) ∈ added := by
  induction added using List.reverseRecOn generalizing address entry with
  | nil => simp [PoolIndex.ofPools, PoolIndex.new]
  | append_singleton before pool ih =>
    rw [List.map_append, List.nodup_append] at distinct
    obtain ⟨earlier, -, apart⟩ := distinct
    have new : ∀ e, (pool.1, e) ∉ before := fun e listed =>
      apart _ (List.mem_map.mpr ⟨_, listed, rfl⟩) _ (by simp) rfl
    rw [ofPools_append, List.mem_append, ← ih earlier, List.mem_singleton]
    simp only [PoolIndex.addPool, Function.update_apply]
    by_cases same : address = pool.1
    · subst same
      have none : ∀ e, (PoolIndex.ofPools before).pools pool.1 ≠ some e := fun e found => new e ((ih earlier).mp found)
      obtain ⟨name, last⟩ := pool
      simp [none, eq_comm]
    · have other : (address, entry) ≠ pool := fun is => same (congrArg Prod.fst is)
      simp [same, other]

/-- The pools of an index whose pools were each added once are what was added, in another order. -/
theorem Iterates.perm {pools : List (String × FiledEntry)} (iterates : Iterates (PoolIndex.ofPools added) pools)
    (distinct : (added.map Prod.fst).Nodup) : (pools.map fun p => (p.1, p.2.toPoolEntry)).Perm added := by
  have once : (pools.map fun p => (p.1, p.2.toPoolEntry)).Nodup := by
    refine List.Nodup.of_map Prod.fst ?_
    rw [List.map_map]
    exact iterates.once
  refine (List.perm_ext_iff_of_nodup once (List.Nodup.of_map Prod.fst distinct)).mpr fun (address, entry) => ?_
  rw [← iterates.pools, ofPools_pools distinct]

end Index

/-- What is saved is loaded again: the same pools, and, when every pool was added once, the same token graph and
the same counts. A file that was cut off anywhere while it was written is refused. -/
theorem cache_round_trip {restore : Bytes → Option (String × FiledEntry)} {index : PoolIndex}
    {pools : List (String × FiledEntry)} {now : ℕ} (iterates : Iterates index pools)
    (filed : ∀ p ∈ pools, p.2.cachedData ≠ [] ∧ p.2.cachedData.length < 2 ^ 32)
    (restores : ∀ p ∈ pools, restore p.2.cachedData = some p) (time : now < 2 ^ 64) (count : pools.length < 2 ^ 64) :
    loadCache restore (saveCache pools now) = .ok (pools, now) ∧ (filedIndex pools).pools = index.pools ∧
      (∀ added, index = PoolIndex.ofPools added → (added.map Prod.fst).Nodup →
        (∀ mint, ((filedIndex pools).edges mint).Perm (index.edges mint)) ∧
          (filedIndex pools).dexCounts = index.dexCounts) ∧
      ∀ start, start <+: saveCache pools now → start ≠ saveCache pools now →
        ∃ e, loadCache restore start = .error e := by
  have saved := takeCache_saved filed time count
  refine ⟨?_, ?_, ?_, ?_⟩
  · have back : (pools.map fun p => p.2.cachedData).filterMap restore = pools := by
      rw [List.filterMap_map]
      exact (List.filterMap_congr fun p listed => restores p listed).trans List.filterMap_some
    rw [loadCache, saved, Except.map, back]
  · funext address
    refine Option.ext fun entry => ?_
    rw [iterates.pools]
    refine ofPools_pools ?_
    rw [List.map_map]
    exact iterates.once
  · rintro added rfl distinct
    have same := iterates.perm distinct
    refine ⟨fun mint => ?_, funext fun dex => ?_⟩
    · rw [filedIndex, ofPools_edges, ofPools_edges]
      exact same.flatMap_right _
    · rw [filedIndex, ofPools_dexCounts, ofPools_dexCounts]
      exact same.countP_eq _
  · intro start cut short
    obtain ⟨e, refused⟩ := Taker.take_torn saved cut short
    exact ⟨e, by rw [loadCache, refused, Except.map]⟩

/-- A pool with its data. -/
def filedPool (address : String) (cachedData : Bytes) : String × FiledEntry :=
  (address, ⟨⟨⟨true, none, fun _ _ => some 1, fun _ _ _ _ _ _ => none⟩, "Meteora DLMM", .replicate 32 1,
    .replicate 32 2, [], [], []⟩, cachedData⟩)

/-- Two pools in a file of 39 bytes. -/
theorem cache_round_trip_two :
    let pools := [filedPool "one" [1, 1], filedPool "two" [2]]
    let restore data := pools.find? fun p => p.2.cachedData = data
    loadCache restore (saveCache pools 5) = .ok (pools, 5) ∧
      ∀ start, start <+: saveCache pools 5 → start ≠ saveCache pools 5 → ∃ e, loadCache restore start = .error e := by
  intro pools restore
  have distinct : (pools.map Prod.fst).Nodup := by simp [pools, filedPool]
  have iterates : Iterates (filedIndex pools) pools := by
    refine ⟨distinct, fun address entry => ofPools_pools ?_⟩
    rw [List.map_map]
    exact distinct
  obtain ⟨loads, -, -, torn⟩ := @cache_round_trip restore _ pools 5 iterates
    (by simp [pools, filedPool]) (by simp [pools, restore, filedPool]) (by decide) (by simp [pools])
  exact ⟨loads, torn⟩

end RndRust.Thunder.Aggregator
