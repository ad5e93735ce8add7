import GrpcServer.DpdkFilter.Cache.Sqlite
import GrpcServer.TtlCache.History

open c_memory ttl_cache

namespace grpc_server.dpdk_filter

/-- The entry points of one of the two caches, with what each does to the cache's
table. -/
structure CacheApi (K : Type) [DecidableEq K] where
  hash : Caches → Table K NodeCache
  key_copy : K → K
  lookup : UInt64 → CacheEnv → K → Caches → Lookup NodeCache × Caches
  add : CacheEnv → K → NodeCache → Int32 → Caches → Caches
  clear : Caches → Caches
  key_copy_idem : ∀ key, key_copy (key_copy key) = key_copy key
  lookup_fst : ∀ hz env key caches, (lookup hz env key caches).1 =
    (ttl_cache.lookup (NodeCache.expired hz env.lookup_cycles) env.del_key_ok key (hash caches)).1
  hash_lookup : ∀ hz env key caches, hash (lookup hz env key caches).2 =
    (ttl_cache.lookup (NodeCache.expired hz env.lookup_cycles) env.del_key_ok key (hash caches)).2
  hash_add : ∀ env key node ttl caches, hash (add env key node ttl caches) =
    ttl_cache.add (env.key_alloc_ok && env.add_key_ok) (key_copy key) (node.stamped env.add_cycles ttl) (hash caches)
  hash_clear : ∀ caches, hash (clear caches) = ∅
  hash_empty : hash Caches.empty = ∅

def dns_cache_api : CacheApi DomainKey :=
  { hash := Caches.dns_hash, key_copy := dns_key_copy, lookup := lookup_dns_cache, add := add_to_dns_cache,
    clear := clear_dns_cache, key_copy_idem := dns_key_copy_idem, lookup_fst := fun _ _ _ _ => rfl,
    hash_lookup := fun _ _ _ _ => rfl, hash_add := fun _ _ _ _ _ => rfl, hash_clear := fun _ => rfl, hash_empty := rfl }

def ip_cache_api : CacheApi IpKey :=
  { hash := Caches.ip_hash, key_copy := id, lookup := lookup_ip_cache, add := add_to_ip_cache,
    clear := clear_ip_cache, key_copy_idem := fun _ => rfl, lookup_fst := fun _ _ _ _ => rfl,
    hash_lookup := fun _ _ _ _ => rfl, hash_add := fun _ _ _ _ _ => rfl, hash_clear := fun _ => rfl, hash_empty := rfl }

/-- A call of a cache's entry points, with the counter it reads. -/
inductive CacheCall (K : Type) where
  | add (now : UInt64) (key_alloc_ok : Bool) (key : K) (node : NodeCache) (ttl : Int32)
  | lookup (now : UInt64) (key : K)
  | clear

def CacheCall.time {K : Type} : CacheCall K → Option UInt64
  | .add now .. => some now
  | .lookup now _ => some now
  | .clear => none

section Calls

variable {K : Type} [DecidableEq K]

/-- `rte_hash` refuses only a new key in a table of `CACHE_SIZE` keys. -/
def has_place (table : Table K NodeCache) (key : K) : Bool := key ∈ table || table.keys.card < CACHE_SIZE

/-- What the calls inside an entry point return. -/
def rte_env (table : Table K NodeCache) (key : K) (now : UInt64) (key_alloc_ok : Bool) : CacheEnv :=
  { lookup_cycles := now, del_key_ok := true, key_alloc_ok, add_cycles := now, add_key_ok := has_place table key }

namespace CacheApi

variable (api : CacheApi K) (hz : UInt64)

/-- The key is stored under its own bytes. -/
def Own (key : K) : Prop := api.key_copy key = key

def answer (now : UInt64) (key : K) (caches : Caches) : Lookup NodeCache × Caches :=
  api.lookup hz (rte_env (api.hash caches) key now true) key caches

def call (caches : Caches) : CacheCall K → Caches
  | .add now key_alloc_ok key node ttl =>
    api.add (rte_env (api.hash caches) (api.key_copy key) now key_alloc_ok) key node ttl caches
  | .lookup now key => (api.answer hz now key caches).2
  | .clear => api.clear caches

def run (calls : List (CacheCall K)) : Caches := calls.foldl (api.call hz) Caches.empty

/-- The call, and whether its insertion succeeds. -/
def record (caches : Caches) : CacheCall K → Call K NodeCache
  | .add now key_alloc_ok key node ttl =>
    .add (key_alloc_ok && has_place (api.hash caches) key) key (node.stamped now ttl)
  | .lookup now key => .lookup (NodeCache.expired hz now) key
  | .clear => .clear

def history (caches : Caches) : List (CacheCall K) → List (Call K NodeCache)
  | [] => []
  | c :: rest => api.record hz caches c :: history (api.call hz caches c) rest

end CacheApi

/-- The counter of the calls and of a moment after them never decreases. -/
def InOrder (calls : List (CacheCall K)) (now : UInt64) : Prop :=
  (calls.filterMap CacheCall.time ++ [now]).Pairwise (· ≤ ·)

/-- Insertions are made under keys of a kind and with a positive TTL. -/
def CacheCall.Admissible (kind : K → Prop) : CacheCall K → Prop
  | .add _ _ key _ ttl => kind key ∧ 0 < ttl
  | _ => True

/-- A lookup after some calls answers like a TTL map: it hits with the verdict of
the last successful insertion whose TTL has not passed, it misses otherwise, and
it leaves the answers for other keys alone. -/
structure AnswersAsTtlMap (api : CacheApi K) (hz : UInt64) (calls : List (CacheCall K)) (now : UInt64) (key : K) :
    Prop where
  hit_iff : ∀ verdict,
    (∃ node, (api.answer hz now key (api.run hz calls)).1 = .hit node ∧ node.solution_is_send = verdict) ↔
      ∃ (node : NodeCache) (ttl : Int32) (timestamp : UInt64),
        LastAdd (api.history hz Caches.empty calls) key (node.stamped timestamp ttl) ∧
        node.solution_is_send = verdict ∧ now.toNat - timestamp.toNat < ttl.toInt.toNat * hz.toNat
  enoent : (¬ ∃ node, (api.answer hz now key (api.run hz calls)).1 = .hit node) →
    (api.answer hz now key (api.run hz calls)).1 = .enoent
  others : ∀ later other, other ≠ key →
    (api.answer hz later other (api.answer hz now key (api.run hz calls)).2).1 =
      (api.answer hz later other (api.run hz calls)).1

section Run

variable {api : CacheApi K} {hz : UInt64} {calls : List (CacheCall K)} {now : UInt64}

theorem CacheApi.hash_call {caches : Caches} {c : CacheCall K} (h : c.Admissible api.Own) :
    api.hash (api.call hz caches c) = (api.record hz caches c).apply (api.hash caches) := by
  cases c with
  | add now key_alloc_ok key node ttl =>
    rw [call, api.hash_add, h.1]
    rfl
  | lookup now key => exact api.hash_lookup ..
  | clear => exact api.hash_clear _

theorem CacheApi.hash_foldl_call (h : ∀ c ∈ calls, c.Admissible api.Own) (caches : Caches) :
    api.hash (calls.foldl (api.call hz) caches) = (api.history hz caches calls).foldl Call.apply (api.hash caches) := by
  induction calls generalizing caches with
  | nil => rfl
  | cons c rest ih =>
    obtain ⟨hc, hrest⟩ := List.forall_mem_cons.mp h
    rw [List.foldl_cons, ih hrest, history, List.foldl_cons, hash_call hc]

/-- An insertion of the history is one of the calls. -/
theorem CacheApi.mem_history {caches : Caches} {stored : Bool} {key : K} {value : NodeCache}
    (h : .add stored key value ∈ api.history hz caches calls) :
    ∃ now key_alloc_ok node ttl, .add now key_alloc_ok key node ttl ∈ calls ∧ value = node.stamped now ttl := by
  induction calls generalizing caches with
  | nil => cases h
  | cons c rest ih =>
    rcases List.mem_cons.mp h with hfirst | hrest
    · cases c with
      | add now key_alloc_ok added node ttl =>
        obtain ⟨-, rfl, rfl⟩ := Call.add.inj hfirst
        exact ⟨now, key_alloc_ok, node, ttl, List.mem_cons_self, rfl⟩
      | lookup now key => cases hfirst
      | clear => cases hfirst
    · obtain ⟨now, key_alloc_ok, node, ttl, hmem, hvalue⟩ := ih hrest
      exact ⟨now, key_alloc_ok, node, ttl, List.mem_cons_of_mem c hmem, hvalue⟩

omit [DecidableEq K] in
theorem InOrder.le (h : InOrder calls now) {c : CacheCall K} {time : UInt64} (hc : c ∈ calls)
    (htime : c.time = some time) : time ≤ now :=
  (List.pairwise_append.mp h).2.2 time (List.mem_filterMap.mpr ⟨c, hc, htime⟩) now (List.mem_singleton_self now)

end Run

theorem toNat_toUInt32_of_pos {ttl : Int32} (h : 0 < ttl) : ttl.toUInt32.toNat = ttl.toInt.toNat := by
  have hpositive : 0 < ttl.toInt := Int32.lt_iff_toInt_lt.mp h
  have hbound := ttl.toBitVec.isLt
  rw [← Int32.toInt_toBitVec, BitVec.toInt_eq_toNat_cond] at hpositive ⊢
  change ttl.toBitVec.toNat = _
  split at hpositive
  · rename_i hsmall
    rw [if_pos hsmall, Int.toNat_natCast]
  · omega

theorem toUInt32_inj {first second : Int32} (h : first.toUInt32 = second.toUInt32) : first = second := by
  cases first
  cases second
  cases h
  rfl

/-- The check in whole seconds is the comparison of cycles, as long as the counter
has not gone back. -/
theorem NodeCache.expired_stamped_iff {hz now timestamp : UInt64} {ttl : Int32} (hhz : 0 < hz) (hle : timestamp ≤ now)
    (httl : 0 < ttl) (node : NodeCache) :
    (node.stamped timestamp ttl).expired hz now = false ↔
      now.toNat - timestamp.toNat < ttl.toInt.toNat * hz.toNat := by
  have hage : (now - timestamp).toNat = now.toNat - timestamp.toNat := UInt64.toNat_sub_of_le _ _ hle
  rw [expired, decide_eq_false_iff_not, UInt64.not_le, UInt64.lt_iff_toNat_lt, UInt64.toNat_div, stamped, hage,
    UInt32.toNat_toUInt64, toNat_toUInt32_of_pos httl]
  exact Nat.div_lt_iff_lt_mul (UInt64.lt_iff_toNat_lt.mp hhz)

theorem NodeCache.stamped_inj {first second : NodeCache} {now later : UInt64} {ttl other : Int32}
    (h : first.stamped now ttl = second.stamped later other) :
    first.solution_is_send = second.solution_is_send ∧ now = later ∧ ttl = other := by
  have hsend : (first.stamped now ttl).solution_is_send = (second.stamped later other).solution_is_send := by rw [h]
  have htime : (first.stamped now ttl).timestamp = (second.stamped later other).timestamp := by rw [h]
  have hseconds : (first.stamped now ttl).ttl_seconds = (second.stamped later other).ttl_seconds := by rw [h]
  exact ⟨hsend, htime, toUInt32_inj hseconds⟩

/-- The answer after a sequence of insertions, lookups and clears. -/
theorem CacheApi.answersAsTtlMap {api : CacheApi K} {hz : UInt64} {calls : List (CacheCall K)} {now : UInt64}
    (hhz : 0 < hz) (hclock : InOrder calls now) (hcalls : ∀ c ∈ calls, c.Admissible api.Own) (key : K) :
    AnswersAsTtlMap api hz calls now key := by
  have hanswer : ∀ node, (api.answer hz now key (api.run hz calls)).1 = .hit node ↔
      LastAdd (api.history hz Caches.empty calls) key node ∧ node.expired hz now = false := by
    intro node
    rw [answer, api.lookup_fst, run, hash_foldl_call hcalls, api.hash_empty]
    exact lookup_hit_iff_lastAdd ..
  -- what was inserted last was stamped by one of the calls, so no later than now
  have hstamped : ∀ value, LastAdd (api.history hz Caches.empty calls) key value →
      ∃ (node : NodeCache) (timestamp : UInt64) (ttl : Int32), value = node.stamped timestamp ttl ∧
        timestamp ≤ now ∧ 0 < ttl := by
    intro value hlast
    obtain ⟨timestamp, key_alloc_ok, node, ttl, hmem, hvalue⟩ := mem_history hlast.mem
    exact ⟨node, timestamp, ttl, hvalue, hclock.le hmem rfl, (hcalls _ hmem).2⟩
  refine ⟨fun verdict => ?_, fun hmiss => ?_, fun later other hne => ?_⟩
  · constructor
    · rintro ⟨value, hhit, hverdict⟩
      obtain ⟨hlast, hfresh⟩ := (hanswer value).mp hhit
      obtain ⟨node, timestamp, ttl, rfl, hle, httl⟩ := hstamped value hlast
      exact ⟨node, ttl, timestamp, hlast, hverdict, (NodeCache.expired_stamped_iff hhz hle httl node).mp hfresh⟩
    · rintro ⟨node, ttl, timestamp, hlast, hverdict, hage⟩
      obtain ⟨source, time, positive, heq, hle, httl⟩ := hstamped _ hlast
      obtain ⟨-, rfl, rfl⟩ := NodeCache.stamped_inj heq
      have hfresh := (NodeCache.expired_stamped_iff hhz hle httl node).mpr hage
      exact ⟨_, (hanswer _).mpr ⟨hlast, hfresh⟩, hverdict⟩
  · rw [answer, api.lookup_fst] at hmiss ⊢
    obtain ⟨henoent, -⟩ | ⟨value, -, -, hhit⟩ := lookup_cases (NodeCache.expired hz now) true key
      (api.hash (api.run hz calls))
    · exact henoent
    · exact absurd ⟨value, congrArg Prod.fst hhit⟩ hmiss
  · rw [answer, answer, answer, api.lookup_fst, api.lookup_fst, api.hash_lookup]
    exact lookup_lookup_of_ne hne _

end Calls

/-- A name without a zero byte, and zeroes from its end to the end of the array. -/
def ZeroPadded (domain : DomainKey) : Prop :=
  ∃ name : Str, (∀ b ∈ name, b ≠ 0) ∧ name.length < DOMAIN_MAX_LEN ∧ domain = Slot.ofStr name

theorem ZeroPadded.own {domain : DomainKey} (h : ZeroPadded domain) : dns_cache_api.Own domain := by
  obtain ⟨name, hbytes, hlen, rfl⟩ := h
  exact dns_key_copy_ofStr hbytes hlen

theorem CacheCall.Admissible.mono {K : Type} {kind other : K → Prop} {c : CacheCall K} (h : c.Admissible kind)
    (himp : ∀ key, kind key → other key) : c.Admissible other := by
  cases c with
  | add now key_alloc_ok key node ttl => exact ⟨himp key h.1, h.2⟩
  | lookup now key => trivial
  | clear => trivial

/-- After every sequence of insertions with a positive TTL, lookups and clears under a
counter that never decreases, a lookup answers with the verdict of the last successful
insertion as long as its TTL has not passed. Domains are zero-padded names. -/
theorem caches_are_ttl_maps {hz : UInt64} (hhz : 0 < hz) (now : UInt64) :
    (∀ calls, InOrder calls now → (∀ c ∈ calls, c.Admissible ZeroPadded) →
      ∀ domain, AnswersAsTtlMap dns_cache_api hz calls now domain) ∧
    (∀ calls, InOrder calls now → (∀ c ∈ calls, c.Admissible fun _ => True) →
      ∀ key, AnswersAsTtlMap ip_cache_api hz calls now key) := by
  constructor
  · intro calls hclock hcalls domain
    exact CacheApi.answersAsTtlMap hhz hclock (fun c hc => (hcalls c hc).mono fun _ => ZeroPadded.own) domain
  · intro calls hclock hcalls key
    have hown : ∀ key, ip_cache_api.Own key := fun _ => rfl
    exact CacheApi.answersAsTtlMap hhz hclock (fun c hc => (hcalls c hc).mono fun key _ => hown key) key

/-- A verdict kept for five seconds is found after three. -/
theorem caches_are_ttl_maps_letter :
    ∃ node, (dns_cache_api.answer 1 3 (Slot.ofStr [97]) (dns_cache_api.run 1
      [.add 0 true (Slot.ofStr [97]) (NodeCache.fresh false) 5])).1 = .hit node ∧ node.solution_is_send = false := by
  have hpadded : ZeroPadded (Slot.ofStr [97]) := ⟨[97], by simp, by decide, rfl⟩
  have hanswers := (caches_are_ttl_maps (by decide : (0 : UInt64) < 1) 3).1
    [.add 0 true (Slot.ofStr [97]) (NodeCache.fresh false) 5] (by simp [InOrder, CacheCall.time])
    (by simpa [CacheCall.Admissible] using hpadded) (Slot.ofStr [97])
  exact (hanswers.hit_iff false).mpr ⟨NodeCache.fresh false, 5, 0, ⟨[], [], rfl, nofun⟩, rfl, by decide⟩

section Full

variable {K : Type} [DecidableEq K] {api : CacheApi K} {hz now : UInt64} {caches : Caches}

theorem has_place_iff {table : Table K NodeCache} {key : K} :
    has_place table key = true ↔ key ∈ table ∨ table.keys.card < CACHE_SIZE := by
  rw [has_place, Bool.or_eq_true, decide_eq_true_eq, decide_eq_true_eq]

theorem NodeCache.stamped_fresh_iff (node : NodeCache) (hz now : UInt64) (ttl : Int32) :
    (node.stamped now ttl).expired hz now = false ↔ ttl ≠ 0 := by
  rw [expired, decide_eq_false_iff_not, stamped, UInt64.sub_self, UInt64.zero_div, UInt64.not_le,
    UInt64.lt_iff_toNat_lt, UInt32.toNat_toUInt64]
  change 0 < ttl.toUInt32.toNat ↔ ttl ≠ 0
  rw [Nat.pos_iff_ne_zero, not_iff_not]
  constructor
  · exact fun hzero => toUInt32_inj (UInt32.toNat_inj.mp hzero)
  · rintro rfl
    rfl

theorem CacheApi.hash_call_add (api : CacheApi K) (hz now : UInt64) (caches : Caches) (key : K) (node : NodeCache)
    (ttl : Int32) :
    api.hash (api.call hz caches (.add now true key node ttl)) =
      ttl_cache.add (has_place (api.hash caches) (api.key_copy key)) (api.key_copy key) (node.stamped now ttl)
        (api.hash caches) := api.hash_add ..

/-- A key that is not in the table misses. -/
theorem CacheApi.answer_of_absent {key : K} (h : key ∉ api.hash caches) :
    (api.answer hz now key caches).1 = .enoent := by
  rw [answer, api.lookup_fst]
  refine lookup_enoent _ fun value hvalue => ?_
  exact absurd (Finmap.mem_of_lookup_eq_some hvalue) h

/-- A new key in a full table is not stored. -/
theorem CacheApi.answer_of_full {key : K} (hown : api.Own key) (hplace : has_place (api.hash caches) key = false)
    (node : NodeCache) (ttl : Int32) :
    (api.answer hz now key (api.call hz caches (.add now true key node ttl))).1 = .enoent := by
  apply answer_of_absent
  rw [hash_call_add, hown, hplace]
  intro hmem
  have hfound : has_place (api.hash caches) key = true := has_place_iff.mpr (.inl hmem)
  rw [hplace] at hfound
  cases hfound

/-- An insertion and a lookup at the same moment, on a table whose keys are stored
under their own bytes. -/
theorem CacheApi.answer_after_add_iff (hkeys : Holds (fun stored _ => api.Own stored) (api.hash caches)) (key : K)
    (node : NodeCache) (ttl : Int32) :
    (∃ found, (api.answer hz now key (api.call hz caches (.add now true key node ttl))).1 = .hit found) ↔
      api.Own key ∧ ttl ≠ 0 ∧ has_place (api.hash caches) key = true := by
  by_cases hown : api.Own key
  · cases hplace : has_place (api.hash caches) key with
    | false =>
      rw [answer_of_full hown hplace]
      simp
    | true =>
      have hstored : (api.hash (api.call hz caches (.add now true key node ttl))).lookup key =
          some (node.stamped now ttl) := by
        rw [hash_call_add, hown, hplace]
        exact Finmap.lookup_insert _
      have hhit : (∃ found, (api.answer hz now key (api.call hz caches (.add now true key node ttl))).1 = .hit found) ↔
          (node.stamped now ttl).expired hz now = false := by
        rw [answer, api.lookup_fst]
        constructor
        · rintro ⟨found, hfound⟩
          obtain ⟨hlookup, hfresh⟩ := lookup_eq_hit hfound
          obtain rfl := Option.some.inj (hstored.symm.trans hlookup)
          exact hfresh
        · intro hfresh
          exact ⟨_, congrArg Prod.fst (lookup_hit _ hstored hfresh)⟩
      rw [hhit, NodeCache.stamped_fresh_iff]
      simp [hown]
  · have hcopied : Holds (fun stored _ => api.Own stored)
        (api.hash (api.call hz caches (.add now true key node ttl))) := by
      rw [hash_call_add]
      exact hkeys.add _ (api.key_copy_idem key)
    have habsent : key ∉ api.hash (api.call hz caches (.add now true key node ttl)) := by
      intro hmem
      obtain ⟨value, hvalue⟩ := Finmap.mem_iff.mp hmem
      exact hown (hcopied key value hvalue)
    rw [answer_of_absent habsent]
    simp [hown]

theorem CacheApi.run_own (calls : List (CacheCall K)) :
    Holds (fun stored _ => api.Own stored) (api.hash (api.run hz calls)) := by
  refine List.foldlRecOn (motive := fun caches => Holds (fun stored _ => api.Own stored) (api.hash caches)) _ _ ?_ ?_
  · rw [api.hash_empty]
    exact holds_empty _
  · intro caches h c _
    cases c with
    | add now key_alloc_ok key node ttl =>
      rw [call, api.hash_add]
      exact h.add _ (api.key_copy_idem key)
    | lookup now key =>
      rw [call, answer, api.hash_lookup]
      exact h.lookup _ _ _
    | clear =>
      rw [call, api.hash_clear]
      exact holds_empty _

end Full

/-- An insertion at some moment is found by a lookup at the same moment if and only if
the key is stored under its own bytes, the TTL is not zero, and the table holds the
key or fewer than `CACHE_SIZE` keys, expired ones included. -/
theorem cached_at_once_iff (hz now : UInt64) (node : NodeCache) (ttl : Int32) :
    (∀ caches : Caches, Holds (fun stored _ => dns_key_copy stored = stored) caches.dns_hash → ∀ domain,
      (∃ found, (dns_cache_api.answer hz now domain
          (dns_cache_api.call hz caches (.add now true domain node ttl))).1 = .hit found) ↔
        dns_key_copy domain = domain ∧ ttl ≠ 0 ∧
          (domain ∈ caches.dns_hash ∨ caches.dns_hash.keys.card < CACHE_SIZE)) ∧
    (∀ (caches : Caches) (key : IpKey),
      (∃ found, (ip_cache_api.answer hz now key
          (ip_cache_api.call hz caches (.add now true key node ttl))).1 = .hit found) ↔
        ttl ≠ 0 ∧ (key ∈ caches.ip_hash ∨ caches.ip_hash.keys.card < CACHE_SIZE)) := by
  constructor
  · intro caches hkeys domain
    rw [← has_place_iff]
    exact CacheApi.answer_after_add_iff hkeys domain node ttl
  · intro caches key
    have hown : ∀ stored, ip_cache_api.Own stored := fun _ => rfl
    rw [← has_place_iff, CacheApi.answer_after_add_iff (fun stored _ _ => hown stored) key node ttl,
      and_iff_right (hown key)]
    rfl

/-- The key of the IPv4 address whose first two bytes count up. -/
def nth_key (i : ℕ) : IpKey :=
  ⟨4, fun k => if k.val = 0 then UInt8.ofNat i else if k.val = 1 then UInt8.ofNat (i / 256) else 0⟩

theorem nth_key_inj {i j : ℕ} (hi : i < 65536) (hj : j < 65536) (h : nth_key i = nth_key j) : i = j := by
  have hlow : (UInt8.ofNat i).toNat = (UInt8.ofNat j).toNat :=
    congrArg UInt8.toNat (congrFun (congrArg IpKey.addr h) 0)
  have hhigh : (UInt8.ofNat (i / 256)).toNat = (UInt8.ofNat (j / 256)).toNat :=
    congrArg UInt8.toNat (congrFun (congrArg IpKey.addr h) 1)
  simp only [UInt8.toNat_ofNat'] at hlow hhigh
  omega

/-- A verdict for each of the first `n` addresses, kept for one second. -/
def fill_calls (n : ℕ) : List (CacheCall IpKey) :=
  (List.range n).map fun i => .add 0 true (nth_key i) (NodeCache.fresh true) 1

theorem run_fill_calls_succ (n : ℕ) :
    ip_cache_api.run 1 (fill_calls (n + 1)) =
      ip_cache_api.call 1 (ip_cache_api.run 1 (fill_calls n)) (.add 0 true (nth_key n) (NodeCache.fresh true) 1) := by
  rw [fill_calls, List.range_succ, List.map_append, CacheApi.run, List.foldl_append]
  rfl

theorem keys_fill_calls {n : ℕ} (hn : n ≤ CACHE_SIZE) :
    (ip_cache_api.run 1 (fill_calls n)).ip_hash.keys = (Finset.range n).image nth_key := by
  induction n with
  | zero => rfl
  | succ n ih =>
    have hkeys := ih (Nat.le_of_succ_le hn)
    have hplace : has_place (ip_cache_api.hash (ip_cache_api.run 1 (fill_calls n))) (nth_key n) = true := by
      have hcard : (ip_cache_api.run 1 (fill_calls n)).ip_hash.keys.card ≤ n := by
        rw [hkeys]
        exact Finset.card_image_le.trans (Finset.card_range n).le
      exact has_place_iff.mpr (.inr (hcard.trans_lt hn))
    have hstep : (ip_cache_api.run 1 (fill_calls (n + 1))).ip_hash =
        (ip_cache_api.run 1 (fill_calls n)).ip_hash.insert (nth_key n) ((NodeCache.fresh true).stamped 0 1) := by
      rw [run_fill_calls_succ]
      exact (ip_cache_api.hash_call_add 1 0 _ _ _ _).trans (if_pos hplace)
    rw [hstep, keys_insert, hkeys, Finset.range_add_one, Finset.image_insert]

theorem card_fill_calls {n : ℕ} (hn : n ≤ CACHE_SIZE) :
    (ip_cache_api.run 1 (fill_calls n)).ip_hash.keys.card = n := by
  rw [keys_fill_calls hn, Finset.card_image_of_injOn, Finset.card_range]
  intro i hi j hj h
  have hbound : CACHE_SIZE ≤ 65536 := by decide
  rw [Finset.coe_range, Set.mem_Iio] at hi hj
  exact nth_key_inj (by omega) (by omega) h

/-- Every entry has expired five seconds later. -/
theorem fill_calls_expired (n : ℕ) :
    Holds (fun _ node => NodeCache.expired 1 5 node = true) (ip_cache_api.run 1 (fill_calls n)).ip_hash := by
  induction n with
  | zero => exact holds_empty _
  | succ n ih =>
    have hexpired : NodeCache.expired 1 5 ((NodeCache.fresh true).stamped 0 1) = true := by decide
    rw [run_fill_calls_succ]
    exact Holds.add ih _ hexpired

theorem has_place_filled {n : ℕ} (hn : n = CACHE_SIZE) :
    has_place (ip_cache_api.hash (ip_cache_api.run 1 (fill_calls n))) (nth_key n) = false := by
  have hbound : CACHE_SIZE < 65536 := by decide
  change has_place (ip_cache_api.run 1 (fill_calls n)).ip_hash (nth_key n) = false
  rw [← Bool.not_eq_true, has_place_iff, card_fill_calls hn.le, ← Finmap.mem_keys, keys_fill_calls hn.le,
    Finset.mem_image]
  rintro (⟨i, hi, heq⟩ | hroom)
  · rw [Finset.mem_range] at hi
    have hsame := nth_key_inj (by omega) (by omega) heq
    omega
  · omega

/-- A table full of expired verdicts takes no new address: the insertion leaves the
address without an entry. -/
theorem full_of_expired_entries :
    let caches := ip_cache_api.run 1 (fill_calls CACHE_SIZE)
    caches.ip_hash.keys.card = CACHE_SIZE ∧
    Holds (fun _ node => NodeCache.expired 1 5 node = true) caches.ip_hash ∧
    (ip_cache_api.answer 1 5 (nth_key CACHE_SIZE)
      (ip_cache_api.call 1 caches (.add 5 true (nth_key CACHE_SIZE) (NodeCache.fresh true) 1))).1 = .enoent := by
  have hown : ip_cache_api.Own (nth_key CACHE_SIZE) := rfl
  have hfull : has_place (ip_cache_api.hash (ip_cache_api.run 1 (fill_calls CACHE_SIZE))) (nth_key CACHE_SIZE) =
      false := has_place_filled rfl
  exact ⟨card_fill_calls (Nat.le_refl _), fill_calls_expired CACHE_SIZE, CacheApi.answer_of_full hown hfull _ _⟩

/-- Verdicts on `b` and `c`; that on `b` has expired five seconds later. -/
def letter_calls : List (CacheCall DomainKey) :=
  [.add 0 true (Slot.ofStr [98]) (NodeCache.fresh true) 1, .add 4 true (Slot.ofStr [99]) (NodeCache.fresh false) 60]

/-- A name put next to an expired and a valid one is found, and so is an address put
next to a thousand expired ones. -/
theorem cached_at_once_letter :
    let domains := dns_cache_api.run 1 letter_calls
    let addresses := ip_cache_api.run 1 (fill_calls 1000)
    (domains.dns_hash.keys.card = 2 ∧
      ∃ found, (dns_cache_api.answer 1 5 (Slot.ofStr [97])
        (dns_cache_api.call 1 domains (.add 5 true (Slot.ofStr [97]) (NodeCache.fresh true) 1))).1 = .hit found) ∧
    addresses.ip_hash.keys.card = 1000 ∧
    Holds (fun _ node => NodeCache.expired 1 5 node = true) addresses.ip_hash ∧
    ∃ found, (ip_cache_api.answer 1 5 (nth_key 1000)
      (ip_cache_api.call 1 addresses (.add 5 true (nth_key 1000) (NodeCache.fresh true) 1))).1 = .hit found := by
  intro domains addresses
  have hiff := cached_at_once_iff 1 5 (NodeCache.fresh true) 1
  have hdomains : domains.dns_hash.keys.card = 2 := by decide +kernel
  have haddresses : addresses.ip_hash.keys.card = 1000 := card_fill_calls (by decide)
  refine ⟨⟨hdomains, ?_⟩, haddresses, fill_calls_expired 1000, ?_⟩
  · refine (hiff.1 domains (dns_cache_api.run_own letter_calls) (Slot.ofStr [97])).mpr ⟨?_, by decide, .inr ?_⟩
    · exact dns_key_copy_ofStr (by simp) (by decide)
    · rw [hdomains]
      decide
  · refine (hiff.2 addresses (nth_key 1000)).mpr ⟨by decide, .inr ?_⟩
    rw [haddresses]
    decide

end grpc_server.dpdk_filter
