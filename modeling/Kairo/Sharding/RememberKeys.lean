import Kairo.DistributedData.ORSet
import Kairo.Sharding.ShardRuntime

/-!
# Remember stores that share a replicator

A shard keeps its remembered entities in five sets and the coordinator keeps its shards in one.  The
stores share a replicator and are told apart by their keys only.
-/

namespace Kairo.Sharding

open Kairo.DistributedData Kairo.Lib List

/-! ## Keys -/

def rememberEntityShardKeyCount : ℕ := 5

def encodeUtf16 (value : String) : List ℕ :=
  value.toList.flatMap fun c =>
    if c.toNat < 0x10000 then [c.toNat]
    else [0xD800 + (c.toNat - 0x10000) / 0x400, 0xDC00 + (c.toNat - 0x10000) % 0x400]

def javaStringHash (value : String) : BitVec 32 :=
  (encodeUtf16 value).foldl (fun hash unit => hash * 31 + BitVec.ofNat 32 unit) 0

def rememberEntityKeyIndex (entity : EntityId) : Fin rememberEntityShardKeyCount :=
  ⟨(javaStringHash entity).toInt.natAbs % rememberEntityShardKeyCount, Nat.mod_lt _ (by decide)⟩

/-- The key of one partition; the source reports an index outside of the range as an error. -/
def rememberEntityShardKey (typeName : String) (shardId : ShardId)
    (index : Fin rememberEntityShardKeyCount) : String :=
  s!"shard-{typeName}-{shardId}-{index.val}"

def rememberCoordinatorShardsKey (typeName : String) : String := s!"shard-{typeName}-all"

/-! ## Stores -/

variable {R : Type} [DecidableEq R]

/-- What the replicator holds under its keys. -/
abbrev RememberData (R : Type) := FinMap String (ORSet String R)

def RememberData.update (data : RememberData R) (key : String)
    (modify : ORSet String R → ORSet String R) : RememberData R :=
  data.insert key (modify ((data.lookup key).getD .new))

def RememberData.elements (data : RememberData R) (key : String) : Finset String :=
  ((data.lookup key).map fun set => set.elements.keys).getD ∅

def groupUpdateByKey (update : RememberShardUpdate) :
    List (Fin rememberEntityShardKeyCount × RememberShardUpdate) :=
  ((List.finRange _).filter fun i =>
      ∃ e ∈ update.started ∪ update.stopped, rememberEntityKeyIndex e = i).map fun i =>
    (i, ⟨update.started.filter (rememberEntityKeyIndex · = i),
      update.stopped.filter (rememberEntityKeyIndex · = i)⟩)

/-- Stopped entities are removed before the started ones are added. -/
def RememberShardUpdate.modify (update : RememberShardUpdate) (replicaId : R)
    (set : ORSet String R) : ORSet String R :=
  (ordered update.started).foldl (fun set e => set.add replicaId e)
    ((ordered update.stopped).foldl (fun set e => set.remove replicaId e) set)

inductive RememberStore
  | shard (typeName : String) (shardId : ShardId)
  | coordinator (typeName : String)
  deriving DecidableEq

namespace RememberStore

/-- What can be sent: an update of entities to a shard store, a shard to add to a coordinator store. -/
inductive Write
  | update (update : RememberShardUpdate)
  | addShard (shardId : ShardId)

def write (replicaId : R) (data : RememberData R) : RememberStore → Write → RememberData R
  | shard typeName shardId, .update update =>
    (groupUpdateByKey update).foldl (fun data part =>
      data.update (rememberEntityShardKey typeName shardId part.1) (part.2.modify replicaId)) data
  | coordinator typeName, .addShard shardId =>
    data.update (rememberCoordinatorShardsKey typeName) fun set => set.add replicaId shardId
  -- a store does not know the message of the other kind
  | shard _ _, .addShard _ | coordinator _, .update _ => data

def load : RememberStore → RememberData R → Finset String
  | shard typeName shardId, data =>
    Finset.univ.biUnion fun i => data.elements (rememberEntityShardKey typeName shardId i)
  | coordinator typeName, data => data.elements (rememberCoordinatorShardsKey typeName)

def keys : RememberStore → List String
  | shard typeName shardId => (List.finRange _).map (rememberEntityShardKey typeName shardId)
  | coordinator typeName => [rememberCoordinatorShardsKey typeName]

/-! ## When keys coincide -/

lemma length_digit : ∀ i : Fin rememberEntityShardKeyCount, (toString i.val).toList.length = 1 := by
  decide

lemma toList_rememberEntityShardKey (t : String) (s : ShardId) (i : Fin rememberEntityShardKeyCount) :
    (rememberEntityShardKey t s i).toList =
      "shard-".toList ++ (t ++ "-" ++ s).toList ++ "-".toList ++ (toString i.val).toList := by
  simp only [rememberEntityShardKey, toString, String.toList_append, append_assoc]

lemma toList_rememberCoordinatorShardsKey (t : String) :
    (rememberCoordinatorShardsKey t).toList = "shard-".toList ++ t.toList ++ "-al".toList ++
    "l".toList := by
  simp only [rememberCoordinatorShardsKey, toString, String.toList_append, append_assoc]
  rfl

variable {t t' : String} {s s' : ShardId}

lemma rememberEntityShardKey_inj {i j : Fin rememberEntityShardKeyCount} :
    rememberEntityShardKey t s i = rememberEntityShardKey t' s' j ↔
      t ++ "-" ++ s = t' ++ "-" ++ s' ∧ i = j := by
  have hdigit : ∀ i j : Fin rememberEntityShardKeyCount,
      (toString i.val).toList = (toString j.val).toList → i = j := by
    decide
  constructor
  · intro h
    rw [← String.toList_inj, toList_rememberEntityShardKey, toList_rememberEntityShardKey] at h
    -- the last character is the index, and the one before it is a dash
    obtain ⟨h, hij⟩ := append_inj' h ((length_digit i).trans (length_digit j).symm)
    exact ⟨String.toList_inj.mp (append_cancel_left (append_cancel_right h)), hdigit i j hij⟩
  · rintro ⟨h, rfl⟩
    rw [← String.toList_inj, toList_rememberEntityShardKey, toList_rememberEntityShardKey, h]

lemma rememberEntityShardKey_ne_coordinator (t t' : String) (s : ShardId)
    (i : Fin rememberEntityShardKeyCount) :
    rememberEntityShardKey t s i ≠ rememberCoordinatorShardsKey t' := by
  have hdigit : ∀ i : Fin rememberEntityShardKeyCount, (toString i.val).toList ≠ "l".toList := by
    decide
  intro h
  rw [← String.toList_inj, toList_rememberEntityShardKey, toList_rememberCoordinatorShardsKey] at h
  exact hdigit i (append_inj' h ((length_digit i).trans (by decide))).2

lemma rememberCoordinatorShardsKey_inj
    (h : rememberCoordinatorShardsKey t = rememberCoordinatorShardsKey t') : t = t' := by
  rw [← String.toList_inj, toList_rememberCoordinatorShardsKey,
    toList_rememberCoordinatorShardsKey] at h
  exact String.toList_inj.mp (append_cancel_left (append_cancel_right (append_cancel_right h)))

/-- Two different stores that use the same keys: the type names and shards run into each other. -/
def Collides : RememberStore → RememberStore → Prop
  | shard t s, shard t' s' => t ++ "-" ++ s = t' ++ "-" ++ s'
  | _, _ => False

instance : (A B : RememberStore) → Decidable (A.Collides B)
  | shard _ _, shard _ _ => inferInstanceAs (Decidable (_ = _))
  | shard _ _, coordinator _ | coordinator _, shard _ _ | coordinator _, coordinator _ =>
    inferInstanceAs (Decidable False)

variable {A B : RememberStore}

lemma keys_disjoint (hne : A ≠ B) (h : ¬ A.Collides B) : ∀ k ∈ A.keys, k ∉ B.keys := by
  cases A with
  | shard t s =>
    cases B with
    | shard t' s' =>
      intro k hA hB
      obtain ⟨i, -, rfl⟩ := mem_map.mp hA
      obtain ⟨j, -, he⟩ := mem_map.mp hB
      exact h (rememberEntityShardKey_inj.mp he.symm).1
    | coordinator t' =>
      intro k hA hB
      obtain ⟨i, -, rfl⟩ := mem_map.mp hA
      exact rememberEntityShardKey_ne_coordinator t t' s i (mem_singleton.mp hB)
  | coordinator t =>
    cases B with
    | shard t' s' =>
      intro k hA hB
      obtain ⟨j, -, rfl⟩ := mem_map.mp hB
      exact rememberEntityShardKey_ne_coordinator t' t s' j (mem_singleton.mp hA)
    | coordinator t' =>
      intro k hA hB
      have he := (mem_singleton.mp hA).symm.trans (mem_singleton.mp hB)
      exact hne (congrArg coordinator (rememberCoordinatorShardsKey_inj he))

omit [DecidableEq R] in
lemma lookup_update (data : RememberData R) {key k : String} (h : k ≠ key)
    (modify : ORSet String R → ORSet String R) : (data.update key modify).lookup k = data.lookup k := by
  rw [RememberData.update, FinMap.lookup_insert, if_neg h]

lemma lookup_write (replicaId : R) (data : RememberData R) (w : Write) {k : String}
    (hk : k ∉ B.keys) : (B.write replicaId data w).lookup k = data.lookup k := by
  cases B with
  | coordinator t =>
    cases w with
    | update u => rfl
    | addShard s => exact lookup_update data (fun e => hk (mem_singleton.mpr e)) _
  | shard t s =>
    cases w with
    | addShard s => rfl
    | update u =>
      have hkey : ∀ i, k ≠ rememberEntityShardKey t s i := fun i e =>
        hk (e ▸ mem_map_of_mem (mem_finRange i))
      rw [write]
      induction groupUpdateByKey u generalizing data with
      | nil => rfl
      | cons part parts ih => rw [foldl_cons, ih, lookup_update data (hkey part.1)]

omit [DecidableEq R] in
lemma load_congr {data data' : RememberData R} (h : ∀ k ∈ A.keys, data'.lookup k = data.lookup k) :
    A.load data' = A.load data := by
  cases A with
  | coordinator t => rw [load, load, RememberData.elements, RememberData.elements, h _ (by simp [keys])]
  | shard t s =>
    refine Finset.biUnion_congr rfl fun i _ => ?_
    rw [RememberData.elements, RememberData.elements, h _ (mem_map_of_mem (mem_finRange i))]

lemma groupUpdateByKey_singleton (e : EntityId) :
    groupUpdateByKey ⟨{e}, ∅⟩ = [(rememberEntityKeyIndex e, ⟨{e}, ∅⟩)] := by
  have hfilter : ∀ j : Fin rememberEntityShardKeyCount,
      (finRange rememberEntityShardKeyCount).filter (j = ·) = [j] := by
    decide
  simp [groupUpdateByKey, hfilter, Finset.filter_singleton]

/-- A remembered entity of a store is loaded by every store with its keys. -/
lemma mem_load_write (h : (shard t s).Collides (shard t' s')) (replicaId : R) (e : EntityId) :
    e ∈ (shard t s).load ((shard t' s').write replicaId ∅ (.update ⟨{e}, ∅⟩)) := by
  have hkey : rememberEntityShardKey t s (rememberEntityKeyIndex e) =
      rememberEntityShardKey t' s' (rememberEntityKeyIndex e) := rememberEntityShardKey_inj.mpr ⟨h, rfl⟩
  refine Finset.mem_biUnion.mpr ⟨rememberEntityKeyIndex e, Finset.mem_univ _, ?_⟩
  rw [hkey, write, groupUpdateByKey_singleton, foldl_cons, foldl_nil,
    RememberData.elements, RememberData.update, Finmap.lookup_insert]
  simp [RememberShardUpdate.modify, ordered, ORSet.add, ORSetCore.add, Finmap.mem_keys]

/-- **Writes to one store leave what another one loads alone exactly if their keys do not run into each
other.** -/
theorem isolated_iff [Nonempty R] (A B : RememberStore) (hne : A ≠ B) :
    (∀ (writes : List (R × Write)) (data : RememberData R),
      A.load (writes.foldl (fun data w => B.write w.1 data w.2) data) = A.load data) ↔
    ¬ A.Collides B := by
  constructor
  · intro h hc
    cases A with
    | coordinator t => exact hc
    | shard t s =>
      cases B with
      | coordinator t' => exact hc
      | shard t' s' =>
        obtain ⟨replicaId⟩ := ‹Nonempty R›
        have he := mem_load_write hc replicaId ""
        have hload := h [(replicaId, .update ⟨{""}, ∅⟩)] ∅
        rw [foldl_cons, foldl_nil] at hload
        rw [hload] at he
        simp [load, RememberData.elements] at he
  · intro hc writes data
    refine load_congr fun k hk => ?_
    have hk' := keys_disjoint hne hc k hk
    induction writes generalizing data with
    | nil => rfl
    | cons w writes ih => rw [foldl_cons, ih, lookup_write w.1 data w.2 hk']

/-- Two shards of one type. -/
theorem isolated_shards : shard "cart" "1" ≠ shard "cart" "2" ∧
    (shard "cart" "1").load ((shard "cart" "2").write 7 (∅ : RememberData ℕ) (.update ⟨{"e"}, ∅⟩)) =
      (shard "cart" "1").load (∅ : RememberData ℕ) :=
  ⟨by decide, (isolated_iff (shard "cart" "1") (shard "cart" "2") (by decide)).mpr (by decide)
    [(7, .update ⟨{"e"}, ∅⟩)] ∅⟩

/-- The shard `c` of the type `a-b` loads what the shard `b-c` of the type `a` remembers. -/
theorem mixed_shards :
    shard "a-b" "c" ≠ shard "a" "b-c" ∧ (shard "a-b" "c").load (∅ : RememberData ℕ) = ∅ ∧
      "e" ∈ (shard "a-b" "c").load ((shard "a" "b-c").write 1 ∅ (.update ⟨{"e"}, ∅⟩)) :=
  ⟨by decide, by decide, mem_load_write rfl 1 "e"⟩

end RememberStore

end Kairo.Sharding
