import Mathlib.Data.Prod.Lex
import NeuVector.Agent.ProcessProfile
import NeuVector.Library.LastWins

/-!
# What the joined process profile decides

A process is decided by name, path, action and flag of the entries of the
joined profile and their order.  These are followed from the entries of the
groups and of the service through the seven maps of each part: a map holds the
last entry of a key, so the order of the groups can only show where two groups
have different entries for a key that the service has no entry for.
-/

namespace NeuVector.Agent

open Controller Library LastWins List

variable {cur : List ProcessProfileEntry} {entry proc : ProcessProfileEntry} {priority : Nat}

variable {first second : ProcessProfileEntry}

theorem entryLE_iff :
    entryLE first second ↔
      toLex (first.name, first.path) ≤ toLex (second.name, second.path) := by
  rw [Prod.Lex.toLex_le_toLex]
  unfold entryLE
  split
  next same => simp [same]
  next different => simp [different, le_iff_lt_or_eq]

instance : Std.Total entryLE where
  total first second := by
    rw [entryLE_iff, entryLE_iff]
    exact le_total _ _

instance : IsTrans ProcessProfileEntry entryLE where
  trans _ _ _ forward next :=
    entryLE_iff.mpr ((entryLE_iff.mp forward).trans (entryLE_iff.mp next))

theorem entryLE_antisymm (forward : entryLE first second) (backward : entryLE second first) :
    first.name = second.name ∧ first.path = second.path := by
  have same := le_antisymm (entryLE_iff.mp forward) (entryLE_iff.mp backward)
  exact Prod.mk.inj (toLex.injective same)

def atPriority (cur : List ProcessProfileEntry) (priority : Nat) : List ProcessProfileEntry :=
  cur.filter fun entry => priorityOf entry = some priority

theorem priorityMap_lookup (key : String) :
    (priorityMap cur priority).lookup key = last profileKey (atPriority cur priority) key :=
  lookup_fill

theorem mem_atPriority :
    entry ∈ atPriority cur priority ↔ entry ∈ cur ∧ priorityOf entry = some priority := by
  unfold atPriority
  rw [mem_filter, decide_eq_true_iff]

theorem mem_sortedSlices (order : MapOrder ProcessProfileEntry) :
    entry ∈ mapProcToSortedSlices order (priorityMap cur priority) ↔
      (priorityMap cur priority).lookup (profileKey entry) = some entry := by
  have reordered := (perm_insertionSort entryLE _).trans
    (order.order_perm (held (priorityMap cur priority)))
  rw [priorityMap_lookup]
  exact reordered.mem_iff.trans mem_held_fill

theorem priorityMap_mem {key : String}
    (found : (priorityMap cur priority).lookup key = some entry) :
    entry ∈ cur ∧ priorityOf entry = some priority ∧ profileKey entry = key := by
  rw [priorityMap_lookup] at found
  obtain ⟨member, keyed⟩ := last_mem found
  obtain ⟨inCur, atOwn⟩ := mem_atPriority.mp member
  exact ⟨inCur, atOwn, keyed⟩

theorem sortedSlices_keys (order : MapOrder ProcessProfileEntry) :
    (mapProcToSortedSlices order (priorityMap cur priority)).Pairwise
      fun first second => profileKey first ≠ profileKey second := by
  have reordered := (perm_insertionSort entryLE _).trans
    (order.order_perm (held (priorityMap cur priority)))
  exact (reordered.pairwise_iff fun different => different.symm).mpr held_fill_pairwise

/-- The part of an entry that decides on processes. -/
def brief (entry : ProcessProfileEntry) : ProcessProfileEntry :=
  { entry with hash := [], cfgType := .unset, uuid := "", derivedGroup := "" }

theorem sortedSlices_brief {first second : List ProcessProfileEntry}
    (order other : MapOrder ProcessProfileEntry)
    (same : ∀ key, ((priorityMap first priority).lookup key).map brief =
      ((priorityMap second priority).lookup key).map brief) :
    (mapProcToSortedSlices order (priorityMap first priority)).map brief =
      (mapProcToSortedSlices other (priorityMap second priority)).map brief := by
  let briefs (order : MapOrder ProcessProfileEntry) cur :=
    (mapProcToSortedSlices order (priorityMap cur priority)).map brief
  have sorted : ∀ order cur, (briefs order cur).Pairwise entryLE := by
    intro order cur
    apply pairwise_map.mpr
    exact pairwise_insertionSort entryLE _
  have nodup : ∀ order cur, (briefs order cur).Nodup := by
    intro order cur
    apply pairwise_map.mpr
    refine List.Pairwise.imp ?_ (sortedSlices_keys order)
    intro one two different equal
    have keys : profileKey (brief one) = profileKey (brief two) := congrArg profileKey equal
    exact different keys
  have holds : ∀ order cur decided, decided ∈ briefs order cur ↔
        ((priorityMap cur priority).lookup (profileKey decided)).map brief = some decided := by
    intro order cur decided
    constructor
    · intro member
      obtain ⟨entry, inSlices, rfl⟩ := mem_map.mp member
      have found := (mem_sortedSlices order).mp inSlices
      exact congrArg (Option.map brief) found
    · intro found
      obtain ⟨entry, looked, rfl⟩ := Option.map_eq_some_iff.mp found
      exact mem_map.mpr ⟨entry, (mem_sortedSlices order).mpr looked, rfl⟩
  have members : ∀ decided, decided ∈ briefs order first ↔ decided ∈ briefs other second := by
    intro decided
    rw [holds, holds, same]
  refine List.Perm.eq_of_pairwise ?_ (sorted order first) (sorted other second)
    ((perm_ext_iff_of_nodup (nodup order first) (nodup other second)).mpr members)
  intro one two oneIn twoIn forward backward
  obtain ⟨names, paths⟩ := entryLE_antisymm forward backward
  have foundOne := (holds order first one).mp oneIn
  have foundTwo := (holds other second two).mp twoIn
  have keys : profileKey one = profileKey two := by rw [profileKey, names, paths, profileKey]
  rw [same, keys, foundTwo] at foundOne
  exact (Option.some.inj foundOne).symm

theorem mergeProcessProfiles_brief {first second : List ProcessProfileEntry}
    (orders others : Nat → MapOrder ProcessProfileEntry)
    (same : ∀ priority key, ((priorityMap first priority).lookup key).map brief =
        ((priorityMap second priority).lookup key).map brief) :
    (mergeProcessProfiles orders first).map brief =
      (mergeProcessProfiles others second).map brief := by
  unfold mergeProcessProfiles
  rw [map_flatMap, map_flatMap]
  congr 1
  funext priority
  exact sortedSlices_brief _ _ (same priority)

theorem matchedEntry_brief (process : List ProcessProfileEntry) :
    (matchedEntry process proc).map brief = (process.map brief).find? fun entry =>
        matchProfileProcess entry proc := by
  rw [find?_map]
  rfl

def storedOrder (κ : Type) : MapOrder κ := { order := id, order_perm := List.Perm.refl }

/-- Groups in the given order, maps as they are stored. -/
def ordersOf (groups : MapOrder String) : ProfileOrders :=
  { groups := groups, priorities := fun _ _ => storedOrder _ }

/-- The group is visited after all others. -/
def groupLast (grpName : String) : MapOrder String :=
  { order := fun keys => keys.filter (fun other => other ≠ grpName) ++
      keys.filter (fun other => !decide (other ≠ grpName))
    order_perm := fun keys => filter_append_perm _ keys }

section Groups

variable {cache : ProfileCache} {orders others : ProfileOrders}
  {id svc : String} {svcProc : ProcessProfile} {part : ProfilePart}

/-- Two groups that have an entry for a key in the same map of a part, where
the service has none, have the same one as far as it decides. -/
def GroupsAgree (cache : ProfileCache) (id : String)
    (svcProc : ProcessProfile) (part : ProfilePart) : Prop :=
  ∀ (priority : Nat) (key first second : String) (one two : ProcessProfileEntry),
    (priorityMap (groupEntries cache id part first) priority).lookup key = some one →
    (priorityMap (groupEntries cache id part second) priority).lookup key = some two →
    (priorityMap (serviceEntries svcProc part) priority).lookup key = none →
    one.name = two.name ∧ one.path = two.path ∧ one.action = two.action ∧
      one.allowFileUpdate = two.allowFileUpdate

theorem atPriority_partEntries :
    atPriority (partEntries cache orders id svcProc part) priority =
      ((orders.groups.order cache.groups.keys).flatMap fun grpName =>
        atPriority (groupEntries cache id part grpName) priority) ++
      atPriority (serviceEntries svcProc part) priority := by
  unfold atPriority partEntries
  rw [filter_append, filter_flatMap]

theorem groupEntries_known {grpName : String}
    (member : entry ∈ groupEntries cache id part grpName) : grpName ∈ cache.groups.keys := by
  apply AList.lookup_isSome.mp
  unfold groupEntries at member
  cases found : cache.groups.lookup grpName with
  | none =>
    rw [found] at member
    cases member
  | some grpCache => rfl

theorem groupEntries_subset {grpName : String}
    (member : entry ∈ groupEntries cache id part grpName) :
    entry ∈ partEntries cache orders id svcProc part := by
  apply mem_append_left
  apply mem_flatMap.mpr
  exact ⟨grpName, (orders.groups.order_perm _).mem_iff.mpr (groupEntries_known member), member⟩

theorem GroupsAgree.of_entries (orders : ProfileOrders)
    (agree : ∀ one ∈ partEntries cache orders id svcProc part,
      ∀ two ∈ partEntries cache orders id svcProc part,
      priorityOf one = priorityOf two → profileKey one = profileKey two →
      (∀ own ∈ serviceEntries svcProc part,
        profileKey own ≠ profileKey one ∨ priorityOf own ≠ priorityOf one) →
      one.name = two.name ∧ one.path = two.path ∧ one.action = two.action ∧
        one.allowFileUpdate = two.allowFileUpdate) :
    GroupsAgree cache id svcProc part := by
  intro priority key first second one two foundOne foundTwo service
  obtain ⟨oneIn, onePriority, rfl⟩ := priorityMap_mem foundOne
  obtain ⟨twoIn, twoPriority, keys⟩ := priorityMap_mem foundTwo
  rw [priorityMap_lookup] at service
  apply agree one (groupEntries_subset oneIn) two (groupEntries_subset twoIn)
    (onePriority.trans twoPriority.symm) keys.symm
  intro own member
  by_cases same : priorityOf own = priorityOf one
  · left
    exact last_eq_none_iff.mp service own (mem_atPriority.mpr ⟨member, same.trans onePriority⟩)
  · exact Or.inr same

theorem mergedPart_brief (agree : GroupsAgree cache id svcProc part) :
    (mergedPart cache orders id svcProc part).map brief =
      (mergedPart cache others id svcProc part).map brief := by
  apply mergeProcessProfiles_brief
  intro priority key
  rw [priorityMap_lookup, priorityMap_lookup, atPriority_partEntries,
    atPriority_partEntries, last_append, last_append]
  cases service : last profileKey (atPriority (serviceEntries svcProc part) priority) key with
  | some own => rfl
  | none =>
    apply last_flatMap_perm
    · exact (orders.groups.order_perm _).trans (others.groups.order_perm _).symm
    · intro first second one two foundOne foundTwo
      simp only [brief, ProcessProfileEntry.mk.injEq, true_and]
      apply agree priority key first second one two
      · exact (priorityMap_lookup key).trans foundOne
      · exact (priorityMap_lookup key).trans foundTwo
      · exact (priorityMap_lookup key).trans service

/-- The group that is visited last has its entry in the map, if the service
has none for the key. -/
theorem groupLast_lookup {grpName key : String}
    (found : (priorityMap (groupEntries cache id part grpName) priority).lookup key = some entry)
    (service : (priorityMap (serviceEntries svcProc part) priority).lookup key = none) :
    (priorityMap (partEntries cache (ordersOf (groupLast grpName)) id svcProc part)
      priority).lookup key = some entry := by
  rw [priorityMap_lookup] at found service ⊢
  obtain ⟨inGroup, keyed⟩ := last_mem found
  have known := groupEntries_known (mem_atPriority.mp inGroup).1
  have visits : (ordersOf (groupLast grpName)).groups.order cache.groups.keys =
      cache.groups.keys.filter (fun other => other ≠ grpName) ++
        cache.groups.keys.filter (fun other => !decide (other ≠ grpName)) := rfl
  rw [atPriority_partEntries, last_append, service, Option.none_or, visits, flatMap_append,
    last_append]
  have visited : grpName ∈ cache.groups.keys.filter fun other => !decide (other ≠ grpName) :=
    mem_filter.mpr ⟨known, by simp⟩
  have inBlock : entry ∈ (cache.groups.keys.filter fun other => !decide (other ≠ grpName)).flatMap
      fun other => atPriority (groupEntries cache id part other) priority :=
    mem_flatMap.mpr ⟨grpName, visited, inGroup⟩
  obtain ⟨standing, stands⟩ := last_isSome profileKey inBlock
  rw [keyed] at stands
  obtain ⟨block, member, own⟩ := last_flatMap_block stands
  have same : block = grpName := by simpa using (mem_filter.mp member).2
  rw [same, found] at own
  rw [stands, ← own, Option.some_or]

theorem profileVerdict_brief {profile other : ProcessProfile}
    (same : profile.process.map brief = other.process.map brief) :
    profileVerdict profile proc = profileVerdict other proc := by
  have seen : ∀ profile : ProcessProfile, profileVerdict profile proc =
      ((matchedEntry profile.process proc).map brief).map fun entry =>
        (entry.action, entry.allowFileUpdate) := by
    intro profile
    rw [Option.map_map]
    rfl
  rw [seen, seen, matchedEntry_brief, matchedEntry_brief, same]

theorem calculate_verdict (agree : ∀ part, GroupsAgree cache id svcProc part)
    (loaded : getProcessProfile cache svc = some svcProc) :
    (calculateProcGroupProfile cache orders id svc).map
        (fun profile => profileVerdict profile proc) =
      (calculateProcGroupProfile cache others id svc).map
        fun profile => profileVerdict profile proc := by
  unfold calculateProcGroupProfile
  rw [loaded]
  apply congrArg some
  apply profileVerdict_brief
  simp only [map_append]
  rw [mergedPart_brief (agree .federal), mergedPart_brief (agree .crd),
    mergedPart_brief (agree .other)]

end Groups

def IsAll (entry : ProcessProfileEntry) : Prop := entry.name = "*" ∧ entry.path = "*"

/-- Entries that share a key of one of the maps have one name and path. -/
def KeysApart (cur : List ProcessProfileEntry) : Prop :=
  ∀ first ∈ cur, ∀ second ∈ cur, priorityOf first = priorityOf second →
    profileKey first = profileKey second →
    first.name = second.name ∧ first.path = second.path

theorem priorityOf_deny (denied : entry.action = .deny) (notAll : ¬ IsAll entry) :
    ∃ priority, priorityOf entry = some priority ∧ 1 ≤ priority ∧ priority ≤ 3 := by
  unfold IsAll at notAll
  unfold priorityOf
  rw [if_pos denied, if_neg notAll]
  split
  · exact ⟨3, rfl, by omega, by omega⟩
  · split
    · exact ⟨2, rfl, by omega, by omega⟩
    · exact ⟨1, rfl, by omega, by omega⟩

theorem priorityOf_allow (allowed : entry.action ≠ .deny) :
    priorityOf entry = some 0 ∧ IsAll entry ∨
      ∃ priority, priorityOf entry = some priority ∧ 4 ≤ priority ∧ priority ≤ 6 := by
  unfold priorityOf
  rw [if_neg allowed]
  split
  case isTrue all => exact Or.inl ⟨rfl, all⟩
  case isFalse =>
    right
    split
    · exact ⟨6, rfl, by omega, by omega⟩
    · split
      · exact ⟨5, rfl, by omega, by omega⟩
      · exact ⟨4, rfl, by omega, by omega⟩

theorem priorityOf_eq_none_iff : priorityOf entry = none ↔ entry.action = .deny ∧ IsAll entry := by
  constructor
  · intro dropped
    by_contra kept
    by_cases denied : entry.action = .deny
    · obtain ⟨priority, own, _⟩ := priorityOf_deny denied fun all => kept ⟨denied, all⟩
      rw [dropped] at own
      cases own
    · rcases priorityOf_allow denied with ⟨own, _⟩ | ⟨priority, own, _⟩
      · rw [dropped] at own
        cases own
      · rw [dropped] at own
        cases own
  · rintro ⟨denied, all⟩
    exact (if_pos denied).trans (if_pos all)

theorem priorityOf_kept (kept : ¬ (entry.action = .deny ∧ IsAll entry)) :
    ∃ priority, priorityOf entry = some priority ∧ priority < 7 := by
  by_cases denied : entry.action = .deny
  · obtain ⟨priority, own, _, bound⟩ := priorityOf_deny denied fun all => kept ⟨denied, all⟩
    exact ⟨priority, own, by omega⟩
  · rcases priorityOf_allow denied with ⟨own, _⟩ | ⟨priority, own, _, bound⟩
    · exact ⟨0, own, by omega⟩
    · exact ⟨priority, own, by omega⟩

theorem priorityMap_stands (apart : KeysApart cur) (member : entry ∈ cur)
    (own : priorityOf entry = some priority) :
    ∃ standing, (priorityMap cur priority).lookup (profileKey standing) = some standing ∧
      standing.name = entry.name ∧ standing.path = entry.path := by
  have kept : ∃ standing, last profileKey (atPriority cur priority)
      (profileKey entry) = some standing :=
    last_isSome _ (mem_atPriority.mpr ⟨member, own⟩)
  obtain ⟨standing, found⟩ := kept
  rw [← priorityMap_lookup] at found
  obtain ⟨inCur, same, keyed⟩ := priorityMap_mem found
  refine ⟨standing, keyed ▸ found, ?_⟩
  exact apart standing inCur entry member (same.trans own.symm) keyed

theorem mem_mergeProcessProfiles (orders : Nat → MapOrder ProcessProfileEntry) :
    entry ∈ mergeProcessProfiles orders cur ↔ ∃ priority < 7,
      (priorityMap cur priority).lookup (profileKey entry) = some entry := by
  unfold mergeProcessProfiles
  rw [mem_flatMap]
  constructor
  · rintro ⟨priority, bound, member⟩
    exact ⟨priority, mem_range.mp bound, (mem_sortedSlices _).mp member⟩
  · rintro ⟨priority, bound, found⟩
    exact ⟨priority, mem_range.mpr bound, (mem_sortedSlices _).mpr found⟩

theorem mem_merged_lookup {orders : Nat → MapOrder ProcessProfileEntry}
    (member : entry ∈ mergeProcessProfiles orders cur) (own : priorityOf entry = some priority) :
    (priorityMap cur priority).lookup (profileKey entry) = some entry := by
  obtain ⟨other, _, found⟩ := (mem_mergeProcessProfiles orders).mp member
  obtain ⟨_, same, _⟩ := priorityMap_mem found
  rw [own] at same
  rw [Option.some.inj same]
  exact found

/-- Every entry is kept in the list of its priority by name and path, but for
those that deny all. -/
def KeepsEntries (cur merged : List ProcessProfileEntry) : Prop :=
  ∀ entry ∈ cur, ¬ (entry.action = .deny ∧ IsAll entry) → ∃ standing ∈ merged,
    standing.name = entry.name ∧ standing.path = entry.path ∧
      priorityOf standing = priorityOf entry

theorem mergeProcessProfiles_keeps_iff (orders : Nat → MapOrder ProcessProfileEntry) :
    KeepsEntries cur (mergeProcessProfiles orders cur) ↔ KeysApart cur := by
  constructor
  · intro keeps first firstIn second secondIn priorities keys
    by_cases dropped : first.action = .deny ∧ IsAll first
    · have none := priorities.symm.trans (priorityOf_eq_none_iff.mpr dropped)
      obtain ⟨_, name, path⟩ := priorityOf_eq_none_iff.mp none
      exact ⟨dropped.2.1.trans name.symm, dropped.2.2.trans path.symm⟩
    · obtain ⟨priority, own, _⟩ := priorityOf_kept dropped
      have alsoKept : ¬ (second.action = .deny ∧ IsAll second) := by
        rw [← priorityOf_eq_none_iff, ← priorities, own]
        exact Option.some_ne_none _
      obtain ⟨one, oneIn, oneName, onePath, onePriority⟩ := keeps first firstIn dropped
      obtain ⟨two, twoIn, twoName, twoPath, twoPriority⟩ := keeps second secondIn alsoKept
      have foundOne := mem_merged_lookup oneIn (onePriority.trans own)
      have foundTwo := mem_merged_lookup twoIn (twoPriority.trans (priorities.symm.trans own))
      have sameKey : profileKey one = profileKey two := by
        unfold profileKey at keys ⊢
        rw [oneName, onePath, twoName, twoPath, keys]
      rw [sameKey, foundTwo] at foundOne
      obtain rfl := Option.some.inj foundOne
      exact ⟨oneName.symm.trans twoName, onePath.symm.trans twoPath⟩
  · intro apart entry member kept
    obtain ⟨priority, own, bound⟩ := priorityOf_kept kept
    obtain ⟨standing, found, name, path⟩ := priorityMap_stands apart member own
    obtain ⟨_, same, _⟩ := priorityMap_mem found
    exact ⟨standing, (mem_mergeProcessProfiles orders).mpr ⟨priority, bound, found⟩, name, path,
      same.trans own.symm⟩

section Groups

variable {cache : ProfileCache} {id : String} {svcProc : ProcessProfile} {part : ProfilePart}

/-- The joined part decides in the same way whatever the orders are. -/
def SameInAllOrders (cache : ProfileCache) (id : String) (svcProc : ProcessProfile)
    (part : ProfilePart) : Prop :=
  ∀ orders others : ProfileOrders, (mergedPart cache orders id svcProc part).map brief =
    (mergedPart cache others id svcProc part).map brief

theorem sameInAllOrders_iff :
    SameInAllOrders cache id svcProc part ↔ GroupsAgree cache id svcProc part := by
  constructor
  · intro same priority key first second one two foundOne foundTwo service
    obtain ⟨_, own, keyed⟩ := priorityMap_mem foundOne
    have lookupOne := groupLast_lookup foundOne service
    have lookupTwo := groupLast_lookup foundTwo service
    have bound : priority < 7 := by
      have kept : ¬ (one.action = .deny ∧ IsAll one) := by
        rw [← priorityOf_eq_none_iff, own]
        exact Option.some_ne_none _
      obtain ⟨other, isOther, low⟩ := priorityOf_kept kept
      rw [own] at isOther
      rw [Option.some.inj isOther]
      exact low
    have merged : one ∈ mergedPart cache (ordersOf (groupLast first)) id svcProc part := by
      apply (mem_mergeProcessProfiles _).mpr
      rw [← keyed] at lookupOne
      exact ⟨priority, bound, lookupOne⟩
    have moved := mem_map_of_mem (f := brief) merged
    rw [same _ (ordersOf (groupLast second))] at moved
    obtain ⟨standing, member, equal⟩ := mem_map.mp moved
    have sameKey : profileKey standing = key :=
      (congrArg profileKey equal : profileKey (brief standing) = _).trans keyed
    have samePriority : priorityOf standing = some priority :=
      (congrArg priorityOf equal : priorityOf (brief standing) = _).trans own
    have found := mem_merged_lookup member samePriority
    rw [sameKey, lookupTwo] at found
    obtain rfl := Option.some.inj found
    simp only [brief, ProcessProfileEntry.mk.injEq, true_and] at equal
    exact ⟨equal.1.symm, equal.2.1.symm, equal.2.2.1.symm, equal.2.2.2.symm⟩
  · exact fun agree _ _ => mergedPart_brief agree

end Groups

theorem priorityOf_before_allow (noAllowAll : ∀ allow ∈ cur, allow.action ≠ .deny → ¬ IsAll allow)
    (member : entry ∈ cur) (own : priorityOf entry = some priority)
    (bound : priority < 4) : entry.action = .deny := by
  by_contra allowed
  rcases priorityOf_allow allowed with ⟨_, all⟩ | ⟨other, isOther, low, _⟩
  · exact noAllowAll entry member allowed all
  · rw [own] at isOther
    have same := Option.some.inj isOther
    omega

theorem mergeProcessProfiles_deny
    (orders : Nat → MapOrder ProcessProfileEntry) (apart : KeysApart cur)
    (noAllowAll : ∀ allow ∈ cur, allow.action ≠ .deny → ¬ IsAll allow)
    (member : entry ∈ cur) (denied : entry.action = .deny)
    (notAll : ¬ IsAll entry) (matched : matchProfileProcess entry proc) :
    ∃ decided, matchedEntry (mergeProcessProfiles orders cur) proc =
        some decided ∧ decided.action = .deny := by
  obtain ⟨priority, own, _, bound⟩ := priorityOf_deny denied notAll
  obtain ⟨standing, found, names, paths⟩ := priorityMap_stands apart member own
  let slices := fun priority => mapProcToSortedSlices (orders priority) (priorityMap cur priority)
  have halves : mergeProcessProfiles orders cur =
      (range 4).flatMap slices ++ [4, 5, 6].flatMap slices := by
    rw [← flatMap_append]
    rfl
  have inFirst : standing ∈ (range 4).flatMap slices := by
    apply mem_flatMap.mpr
    exact ⟨priority, mem_range.mpr (by omega), (mem_sortedSlices _).mpr found⟩
  have standingMatches : matchProfileProcess standing proc = true := by
    unfold matchProfileProcess at matched ⊢
    rw [names, paths]
    exact matched
  have firstHalf : ∃ decided, ((range 4).flatMap slices).find?
      (fun entry => matchProfileProcess entry proc) = some decided := by
    apply Option.isSome_iff_exists.mp
    apply find?_isSome.mpr
    exact ⟨standing, inFirst, standingMatches⟩
  obtain ⟨decided, first⟩ := firstHalf
  refine ⟨decided, ?_, ?_⟩
  · unfold matchedEntry
    rw [halves, find?_append, first]
    rfl
  · obtain ⟨earlier, inRange, inSlices⟩ := mem_flatMap.mp (mem_of_find?_eq_some first)
    obtain ⟨inCur, ownEarlier, _⟩ := priorityMap_mem ((mem_sortedSlices _).mp inSlices)
    exact priorityOf_before_allow noAllowAll inCur ownEarlier (mem_range.mp inRange)

private theorem takeWhile_plain {text : List Char} (rest : List Char) (plain : ':' ∉ text) :
    (text ++ ':' :: rest).takeWhile (· ≠ ':') = text := by
  rw [takeWhile_append_of_pos]
  · simp
  · intro letter member
    apply decide_eq_true
    rintro rfl
    exact plain member

theorem KeysApart.of_plain_names
    (plain : ∀ entry ∈ cur, ':' ∉ entry.name.toList) : KeysApart cur := by
  intro first firstIn second secondIn _ keys
  have texts : first.name.toList ++ ':' :: first.path.toList =
      second.name.toList ++ ':' :: second.path.toList := by
    have letters := congrArg String.toList keys
    simpa [profileKey, String.toList_append] using letters
  have names : first.name.toList = second.name.toList := by
    rw [← takeWhile_plain first.path.toList (plain first firstIn), texts,
      takeWhile_plain second.path.toList (plain second secondIn)]
  rw [names] at texts
  have paths := cons.inj (append_cancel_left texts)
  exact ⟨String.toList_injective names, String.toList_injective paths.2⟩

/-- The joined profile decides in the same way in all orders exactly if the
groups agree on the entries that the service does not override, and then the
first match does not depend on the orders; every entry is kept by name and
path exactly if no two entries share a key by accident, and then a deny entry
beats all allow entries of its part unless one allows all.  Entries that deny
all processes are dropped. -/
theorem calculateProcGroupProfile_decides (cache : ProfileCache)
    (id svc : String) (svcProc : ProcessProfile)
    (loaded : getProcessProfile cache svc = some svcProc) :
    (∀ part, SameInAllOrders cache id svcProc part ↔ GroupsAgree cache id svcProc part) ∧
    ((∀ part, GroupsAgree cache id svcProc part) →
      ∀ (orders others : ProfileOrders) (proc : ProcessProfileEntry),
        (calculateProcGroupProfile cache orders id svc).map
            (fun profile => profileVerdict profile proc) =
          (calculateProcGroupProfile cache others id svc).map
            fun profile => profileVerdict profile proc) ∧
    ∀ (orders : ProfileOrders) (part : ProfilePart),
      (KeepsEntries (partEntries cache orders id svcProc part)
          (mergedPart cache orders id svcProc part) ↔
        KeysApart (partEntries cache orders id svcProc part)) ∧
      (KeysApart (partEntries cache orders id svcProc part) →
        ∀ proc, ∀ deny ∈ partEntries cache orders id svcProc part,
          deny.action = .deny → ¬ IsAll deny →
          matchProfileProcess deny proc = true →
          (∀ allow ∈ partEntries cache orders id svcProc part,
            allow.action ≠ .deny → ¬ IsAll allow) →
          ∃ decided, matchedEntry (mergedPart cache orders id svcProc part) proc =
              some decided ∧ decided.action = .deny) := by
  refine ⟨fun part => sameInAllOrders_iff, ?_, ?_⟩
  · intro agree orders others proc
    exact calculate_verdict agree loaded
  · intro orders part
    refine ⟨mergeProcessProfiles_keeps_iff _, ?_⟩
    intro apart proc deny member denied notAll matched noAllowAll
    exact mergeProcessProfiles_deny _ apart noAllowAll member denied notAll matched

def reversedOrder (κ : Type) : MapOrder κ :=
  { order := List.reverse, order_perm := List.reverse_perm }

def plainEntry (name path : String) (action : ProcessAction)
    (allowFileUpdate : Bool) : ProcessProfileEntry :=
  { name := name, path := path, hash := [], action := action
    cfgType := .userCreated, uuid := "", derivedGroup := ""
    allowFileUpdate := allowFileUpdate }

def plainProfile (group : String) (process : List ProcessProfileEntry) : ProcessProfile :=
  { group := group, alertDisable := false, hashEnable := false
    mode := "Protect", baseline := "", process := process }

def plainCache (service : List ProcessProfileEntry)
    (groups : List (String × List ProcessProfileEntry)) : ProfileCache :=
  { groups := groups.foldl (fun m group => m.insert group.1
      { members := {"web-0"}, proc := plainProfile group.1 group.2 })
      ((∅ : GoMap String GroupProfileData).insert "nv.web"
        { members := {"web-0"}, proc := plainProfile "nv.web" service })
    loadGroupProfile := fun _ _ => none }

def nginx (allowFileUpdate : Bool) : ProcessProfileEntry :=
  plainEntry "nginx" "/usr/sbin/nginx" .allow allowFileUpdate

def shopCache : ProfileCache :=
  plainCache [nginx true] [("shop", [nginx false, plainEntry "sh" "/bin/sh" .allow false]),
      ("fed.ops", [plainEntry "sh" "/bin/*" .deny false])]

def shell : ProcessProfileEntry := plainEntry "sh" "/bin/sh" .learn false

theorem calculateProcGroupProfile_decides_shop :
    getProcessProfile shopCache "nv.web" = some (plainProfile "nv.web" [nginx true]) ∧
      (calculateProcGroupProfile shopCache (ordersOf (storedOrder _))
          "web-0" "nv.web").map (fun profile => profileVerdict profile shell) =
        (calculateProcGroupProfile shopCache (ordersOf (reversedOrder _))
          "web-0" "nv.web").map (fun profile => profileVerdict profile shell) ∧
      ∃ decided, matchedEntry (mergedPart shopCache (ordersOf (storedOrder _)) "web-0"
          (plainProfile "nv.web" [nginx true]) .federal) shell =
        some decided ∧ decided.action = .deny := by
  have decides := calculateProcGroupProfile_decides shopCache "web-0"
    "nv.web" (plainProfile "nv.web" [nginx true]) rfl
  refine ⟨rfl, ?_, ?_⟩
  · apply decides.2.1
    intro part
    apply GroupsAgree.of_entries (ordersOf (storedOrder _))
    cases part <;> decide
  · have apart : KeysApart (partEntries shopCache (ordersOf (storedOrder _))
        "web-0" (plainProfile "nv.web" [nginx true]) .federal) := by
      apply KeysApart.of_plain_names
      decide
    apply (decides.2.2 (ordersOf (storedOrder _)) .federal).2 apart shell
      (plainEntry "sh" "/bin/*" .deny false)
    · decide
    · rfl
    · unfold IsAll
      decide
    · decide
    · unfold IsAll
      decide

/-- Two groups with different flags for one program: the later one counts. -/
def flagCache : ProfileCache := plainCache [] [("shop", [nginx true]), ("tier", [nginx false])]

/-- Two programs whose names and paths, joined by a colon, are the same. -/
def colonEntries : List ProcessProfileEntry :=
  [plainEntry "sh:/bin/a" "/bin/b" .allow false, plainEntry "sh" "/bin/a:/bin/b" .allow false]

def denyAllEntries : List ProcessProfileEntry :=
  [plainEntry "*" "*" .deny false, plainEntry "sh" "/bin/sh" .allow false]

theorem flag_depends_on_group_order :
    (calculateProcGroupProfile flagCache (ordersOf (storedOrder _))
        "web-0" "nv.web").map (fun profile => profileVerdict profile (nginx false)) =
        some (some (.allow, true)) ∧
      (calculateProcGroupProfile flagCache (ordersOf (reversedOrder _))
        "web-0" "nv.web").map (fun profile => profileVerdict profile (nginx false)) =
        some (some (.allow, false)) ∧
      (calculateProcGroupProfile (plainCache colonEntries [])
        (ordersOf (storedOrder _)) "web-1" "nv.web").map
          (fun profile => profile.process.map fun entry => entry.name) =
        some ["sh"] ∧
      (calculateProcGroupProfile (plainCache denyAllEntries [])
        (ordersOf (storedOrder _)) "web-1" "nv.web").map
          (fun profile => profileVerdict profile shell) =
        some (some (.allow, false)) := by decide

/-- The directory is the given one or lies below it. -/
def InDirectory (directory dir : List Char) : Prop :=
  dir = directory ∨ directory ++ ['/'] <+: dir

section Directory

variable {entry proc : ProcessProfileEntry} {directory dir bin : List Char}

/-- The entry is for any name, that of the executable or that of the process. -/
def nameFits (entry proc : ProcessProfileEntry) (bin : List Char) : Prop :=
  entry.name = "*" ∨ bin = entry.name.toList ∨ entry.name = proc.name

theorem matchProfileProcess_directory (rule : entry.path.toList = directory ++ ['/', '*'])
    (split : splitPath proc.path = some (dir, bin))
    (recursive : directory ≠ [] ∨ entry.name ≠ "*" ∧ bin ≠ entry.name.toList) :
    matchProfileProcess entry proc = true ↔ nameFits entry proc bin ∧ directory <+: dir := by
  have below : isBelow entry.path dir = true ↔ directory <+: dir := by simp [isBelow, rule]
  have ends : isRecursivePath entry.path = true := by simp [isRecursivePath, rule]
  have long : 2 ≤ entry.path.toList.length := by simp [rule]
  have given : entry.path ≠ "*" ∧ entry.path ≠ "" := by
    constructor
    all_goals
      intro same
      simp [same] at long
  have root : entry.path = "/*" → directory = [] := by
    intro same
    simpa [same] using rule
  unfold matchProfileProcess nameFits
  grind

/-- A rule for a directory matches only what lies in it or below it, exactly
if the directory of a process with a fitting name goes on with a separator
where it goes on after the directory of the rule. -/
theorem directory_rule_covers_iff (rule : entry.path.toList = directory ++ ['/', '*'])
    (split : splitPath proc.path = some (dir, bin))
    (recursive : directory ≠ [] ∨ entry.name ≠ "*" ∧ bin ≠ entry.name.toList) :
    (matchProfileProcess entry proc = true → InDirectory directory dir) ↔
      (nameFits entry proc bin → ∀ next rest, dir = directory ++ next :: rest → next = '/') := by
  rw [matchProfileProcess_directory rule split recursive, and_imp]
  apply imp_congr_right
  intro _
  constructor
  · intro covered next rest goesOn
    rcases covered ⟨next :: rest, goesOn.symm⟩ with same | ⟨below, inside⟩
    · simp [goesOn] at same
    · rw [goesOn, List.append_assoc] at inside
      exact (List.cons.inj (List.append_cancel_left inside)).1.symm
  · rintro separated ⟨rest, goesOn⟩
    cases rest with
    | nil => exact .inl (by simpa using goesOn.symm)
    | cons next rest =>
      cases separated next rest goesOn.symm
      exact .inr ⟨rest, by simpa using goesOn⟩

end Directory

def binRule : ProcessProfileEntry := plainEntry "*" "/bin/*" .deny false

def binTool : ProcessProfileEntry := plainEntry "x" "/bin/tools/x" .learn false

theorem directory_rule_covers_bin :
    matchProfileProcess binRule binTool = true ∧
      InDirectory "/bin".toList "/bin/tools".toList := by
  have matched : matchProfileProcess binRule binTool = true := by decide
  have split : splitPath binTool.path = some ("/bin/tools".toList, "x".toList) := by decide
  refine ⟨matched, (directory_rule_covers_iff (by decide) split (by decide)).mpr ?_ matched⟩
  intro _ next rest goesOn
  have same : "/bin".toList ++ "/tools".toList = "/bin".toList ++ next :: rest := goesOn
  exact (List.cons.inj (List.append_cancel_left same)).1.symm

theorem directory_rule_matches_sibling :
    matchProfileProcess binRule (plainEntry "x" "/bin2/x" .learn false) = true ∧
      splitPath "/bin2/x" = some ("/bin2".toList, "x".toList) ∧
        ¬ InDirectory "/bin".toList "/bin2".toList := by
  unfold InDirectory
  decide

end NeuVector.Agent
