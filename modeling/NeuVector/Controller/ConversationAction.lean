import NeuVector.Controller.Conversation

/-!
# The action of a conversation

The action of a link is the highest of those that its entries have under each
port, protocol and application last.  A report is taken into it without the
other entries being asked, which is right as long as the times of the reports
decide the same way.
-/

namespace NeuVector.Controller.Conversation

open NeuVector.Library.Runs List

section Action

variable {attr : GraphAttr} {conn : Conn} {entries : GraphEntries}

abbrev ActionMark := ActionKey × Nat × Nat

/-- What the aggregation reads of the entries: port, protocol and application,
the action and the last time. -/
def marks (entries : GraphEntries) : List ActionMark :=
  entries.map fun e => (e.1.toActionKey, e.2.policyAction, e.2.last)

/-- No entry with the port, protocol and application is later. -/
def Leads (ms : List ActionMark) (m : ActionMark) : Prop :=
  ∀ other ∈ ms, other.1 = m.1 → other.2.2 ≤ m.2.2

instance (ms : List ActionMark) (m : ActionMark) : Decidable (Leads ms m) :=
  inferInstanceAs (Decidable (∀ other ∈ ms, other.1 = m.1 → other.2.2 ≤ m.2.2))

/-- The marks of the entries that a link has for the port, protocol and
application of a report under other addresses. -/
def rivals (attr : GraphAttr) (conn : Conn) : List ActionMark :=
  marks (attr.entries.filter fun e =>
    e.1 ≠ conn.gkey ∧ e.1.toActionKey = conn.gkey.toActionKey)

/-- No rival has another action in the same second; a report that raises the
action of the link is not older than a rival; and one that keeps or raises the
action of its own entry below that of the link, and becomes the latest of its
rivals, leaves a latest entry of another port, protocol or application with the
action of the link. -/
def Timed (attr : GraphAttr) (conn : Conn) : Prop :=
  (∀ m ∈ rivals attr conn, m.2.2 = conn.lastSeenAt → m.2.1 = conn.policyAction.toNat) ∧
  (attr.policyAction < conn.policyAction.toNat →
    ∀ m ∈ rivals attr conn, m.2.2 ≤ conn.lastSeenAt) ∧
  ∀ own ∈ attr.entries.lookup conn.gkey, own.policyAction ≤ conn.policyAction.toNat →
    conn.policyAction.toNat < attr.policyAction →
    (∀ m ∈ rivals attr conn, m.2.2 ≤ conn.lastSeenAt) →
    ∃ m ∈ marks attr.entries, Leads (marks attr.entries) m ∧
      m.1 ≠ conn.gkey.toActionKey ∧ m.2.1 = attr.policyAction

/-- The reports that are not older than the entry they find are timed. -/
def ReportsTimed (graph : WlGraph) : GraphEvent × Enumeration → Prop
  | (.report conn, _) => ∀ attr ∈ graph (conn.clientWL, conn.serverWL),
      (∀ own ∈ attr.entries.lookup conn.gkey, own.last ≤ conn.lastSeenAt) → Timed attr conn
  | _ => True

/-- The highest action of the latest entries of each port, protocol and
application. -/
def Aggregates (ms : List ActionMark) (action : Nat) : Prop :=
  ∀ bound, action ≤ bound ↔ ∀ m ∈ ms, Leads ms m → m.2.1 ≤ bound

def TiesAgree (ms : List ActionMark) : Prop :=
  ∀ m ∈ ms, ∀ other ∈ ms, m.1 = other.1 → m.2.2 = other.2.2 → m.2.1 = other.2.1

variable {ms acts old new others : List ActionMark} {m r : ActionMark} {action : Nat}

theorem Aggregates.congr (same : ∀ m, m ∈ old ↔ m ∈ new) (holds : Aggregates old action) :
    Aggregates new action := by
  simpa only [Aggregates, Leads, same] using holds

theorem Aggregates.unique {other : Nat} (first : Aggregates ms action)
    (second : Aggregates ms other) : action = other :=
  eq_of_forall_ge_iff fun bound => (first bound).trans (second bound).symm

theorem TiesAgree.subset (ties : TiesAgree ms) (sub : new ⊆ ms) : TiesAgree new :=
  fun m member other known => ties m (sub member) other (sub known)

/-- What has been noted when the entries with some marks have been visited. -/
structure Noted (ms acts : List ActionMark) : Prop where
  once : (acts.map Prod.fst).Nodup
  leads : ∀ m ∈ acts, m ∈ ms ∧ Leads ms m
  noted : ∀ m ∈ ms, m.1 ∈ acts.map Prod.fst

variable (e : GraphKey × GraphEntry)

theorem noteAction_keys : (noteAction acts e).map Prod.fst =
    if e.1.toActionKey ∈ acts.map Prod.fst then acts.map Prod.fst
    else acts.map Prod.fst ++ [e.1.toActionKey] := by
  induction acts with
  | nil => rfl
  | cons first rest induction =>
    by_cases same : first.1 = e.1.toActionKey
    · by_cases later : first.2.2 < e.2.last <;> simp [noteAction, same, later]
    · by_cases known : e.1.toActionKey ∈ rest.map Prod.fst <;>
        simp_all [noteAction, Ne.symm same]

theorem mem_noteAction (once : (acts.map Prod.fst).Nodup) (member : m ∈ noteAction acts e) :
    m ∈ acts ∧ (m.1 = e.1.toActionKey → e.2.last ≤ m.2.2) ∨
      m = (e.1.toActionKey, e.2.policyAction, e.2.last) ∧
        ∀ old ∈ acts, old.1 = e.1.toActionKey → old.2.2 < e.2.last := by
  induction acts with
  | nil =>
    cases mem_singleton.mp member
    exact .inr ⟨rfl, by simp⟩
  | cons first rest induction =>
    obtain ⟨fresh, once⟩ := nodup_cons.mp once
    have others : ∀ old ∈ rest, old.1 = first.1 → False :=
      fun old known same => fresh (same ▸ mem_map_of_mem known)
    by_cases same : first.1 = e.1.toActionKey
    · rw [noteAction, if_pos same] at member
      split at member
      next later =>
        rcases mem_cons.mp member with rfl | known
        · refine .inr ⟨by rw [same], ?_⟩
          intro old known key
          rcases mem_cons.mp known with rfl | known
          · exact later
          · exact (others old known (key.trans same.symm)).elim
        · exact .inl ⟨.tail _ known, fun key => (others m known (key.trans same.symm)).elim⟩
      next earlier =>
        refine .inl ⟨member, ?_⟩
        intro key
        rcases mem_cons.mp member with rfl | known
        · exact Nat.le_of_not_lt earlier
        · exact (others m known (key.trans same.symm)).elim
    · rw [noteAction, if_neg same] at member
      rcases mem_cons.mp member with rfl | member
      · exact .inl ⟨.head _, fun key => absurd key same⟩
      · rcases induction once member with ⟨known, later⟩ | ⟨rfl, earlier⟩
        · exact .inl ⟨.tail _ known, later⟩
        · refine .inr ⟨rfl, ?_⟩
          intro old known key
          rcases mem_cons.mp known with rfl | known
          · exact absurd key same
          · exact earlier old known key

variable {e}

theorem Noted.step (noted : Noted (marks entries) acts) :
    Noted (marks (entries ++ [e])) (noteAction acts e) := by
  have last : ∀ other ∈ marks (entries ++ [e]), other ∈ marks entries ∨
      other = (e.1.toActionKey, e.2.policyAction, e.2.last) := by simp [marks]
  constructor
  · rw [noteAction_keys]
    split
    · exact noted.once
    next new => exact nodup_append.mpr ⟨noted.once, by simp, by grind⟩
  · intro m member
    rcases mem_noteAction e noted.once member with ⟨known, later⟩ | ⟨rfl, earlier⟩
    · obtain ⟨marked, leads⟩ := noted.leads m known
      refine ⟨by simp_all [marks], ?_⟩
      intro other visited key
      rcases last other visited with before | rfl
      · exact leads other before key
      · exact later key.symm
    · refine ⟨by simp [marks], ?_⟩
      intro other visited key
      rcases last other visited with before | rfl
      · obtain ⟨m, known, same⟩ := mem_map.mp (noted.noted other before)
        have leads := (noted.leads m known).2 other before same.symm
        exact leads.trans (earlier m known (same.trans key)).le
      · exact le_rfl
  · intro other visited
    rw [noteAction_keys]
    rcases last other visited with before | rfl
    · have known := noted.noted other before
      split
      · exact known
      · exact mem_append_left _ known
    · split
      next known => exact known
      · simp

theorem foldl_noteAction_noted (entries : GraphEntries) :
    Noted (marks entries) (entries.foldl noteAction []) := by
  induction entries using List.reverseRecOn with
  | nil => exact ⟨nodup_nil, by simp, by simp [marks]⟩
  | append_singleton entries e induction =>
    rw [foldl_append]
    exact induction.step

theorem getAggregatedAction_aggregates (ties : TiesAgree (marks entries)) :
    Aggregates (marks entries) (getAggregatedAction entries) := by
  intro bound
  have noted := foldl_noteAction_noted entries
  have highest : ∀ acts : List ActionMark,
      acts.foldr (fun e act => max e.2.1 act) 0 ≤ bound ↔ ∀ m ∈ acts, m.2.1 ≤ bound := by
    intro acts
    induction acts with
    | nil => simp
    | cons first rest induction => simp [induction]
  rw [getAggregatedAction, highest]
  constructor
  · intro bounded m member leads
    obtain ⟨act, known, same⟩ := mem_map.mp (noted.noted m member)
    obtain ⟨marked, first⟩ := noted.leads act known
    have together : m.2.2 = act.2.2 :=
      le_antisymm (first m member same.symm) (leads act marked same)
    rw [ties m member act marked same.symm together]
    exact bounded act known
  · intro bounded m known
    exact bounded m (noted.leads m known).1 (noted.leads m known).2

/-- One mark is put in the place of those with a key, none of which is later;
the others stay. -/
structure Replaced (old new others : List ActionMark) (r : ActionMark) : Prop where
  after : ∀ m, m ∈ new ↔ m ∈ others ∨ m = r
  within : others ⊆ old
  before : ∀ m ∈ old, m ∈ others ∨ m.1 = r.1 ∧ m.2.2 ≤ r.2.2

namespace Replaced

theorem leads_iff (replaced : Replaced old new others r) (different : m.1 ≠ r.1) :
    Leads old m ↔ Leads new m := by
  constructor
  · intro leads other member same
    rcases (replaced.after other).mp member with kept | rfl
    · exact leads other (replaced.within kept) same
    · exact absurd same.symm different
  · intro leads other member same
    rcases replaced.before other member with kept | ⟨key, _⟩
    · exact leads other ((replaced.after other).mpr (.inl kept)) same
    · exact absurd (same.symm.trans key) different

theorem older (replaced : Replaced old new others r) (aggregates : Aggregates old action)
    {later : ActionMark} (kept : later ∈ others) (key : later.1 = r.1)
    (after : r.2.2 < later.2.2) : Aggregates new action := by
  intro bound
  rw [aggregates bound]
  constructor
  · intro bounded m member leads
    have visited : later ∈ new := (replaced.after later).mpr (.inl kept)
    rcases (replaced.after m).mp member with stays | rfl
    · apply bounded m (replaced.within stays)
      intro other known same
      rcases replaced.before other known with stays | ⟨own, past⟩
      · exact leads other ((replaced.after other).mpr (.inl stays)) same
      · have := leads later visited (key.trans (own.symm.trans same))
        omega
    · have := leads later visited key
      omega
  · intro bounded m member leads
    have visited := replaced.within kept
    rcases replaced.before m member with stays | ⟨own, past⟩
    · apply bounded m ((replaced.after m).mpr (.inl stays))
      intro other known same
      rcases (replaced.after other).mp known with stays | rfl
      · exact leads other (replaced.within stays) same
      · have := leads later visited (key.trans same)
        omega
    · have := leads later visited (key.trans own.symm)
      omega

variable (replaced : Replaced old new others r) (aggregates : Aggregates old action)
  (latest : ∀ m ∈ others, m.1 = r.1 → m.2.2 ≤ r.2.2)
  (tied : ∀ m ∈ others, m.1 = r.1 → m.2.2 = r.2.2 → m.2.1 = r.2.1)
include replaced aggregates latest tied

theorem leading_le {bound : Nat} (within : action ≤ bound) (own : r.2.1 ≤ bound)
    (member : m ∈ new) (leads : Leads new m) : m.2.1 ≤ bound := by
  rcases (replaced.after m).mp member with stays | rfl
  · by_cases key : m.1 = r.1
    · have newest := leads r ((replaced.after r).mpr (.inr rfl)) key.symm
      rw [tied m stays key (le_antisymm (latest m stays key) newest)]
      exact own
    · have before := (replaced.leads_iff key).mpr leads
      exact (aggregates bound).mp within m (replaced.within stays) before
  · exact own

theorem raises (raised : action ≤ r.2.1) : Aggregates new r.2.1 := by
  have leads : Leads new r := by
    intro other member same
    rcases (replaced.after other).mp member with stays | rfl
    · exact latest other stays same
    · exact le_rfl
  intro bound
  constructor
  · intro own m member
    exact replaced.leading_le aggregates latest tied (raised.trans own) own member
  · intro bounded
    exact bounded r ((replaced.after r).mpr (.inr rfl)) leads

theorem keeps (lowered : r.2.1 ≤ action) (top : m ∈ old) (leads : Leads old m)
    (different : m.1 ≠ r.1) (reached : m.2.1 = action) : Aggregates new action := by
  intro bound
  constructor
  · intro within m member
    exact replaced.leading_le aggregates latest tied within (lowered.trans within) member
  · intro bounded
    rcases replaced.before m top with stays | ⟨own, _⟩
    · have after := (replaced.leads_iff different).mp leads
      rw [← reached]
      exact bounded m ((replaced.after m).mpr (.inl stays)) after
    · exact absurd own different

end Replaced

theorem mem_putEntry (once : (entries.map Prod.fst).Nodup) {e : GraphKey × GraphEntry} :
    e ∈ putEntry conn entries ↔ e ∈ entries ∧ e.1 ≠ conn.gkey ∨
      e = (conn.gkey, ((entries.lookup conn.gkey).getD .new).report conn) := by
  induction entries with
  | nil => simp [putEntry]
  | cons first rest induction =>
    obtain ⟨gkey, ge⟩ := first
    obtain ⟨fresh, once⟩ := nodup_cons.mp once
    by_cases same : gkey = conn.gkey
    · have others : ∀ other ∈ rest, other.1 ≠ conn.gkey :=
        fun other known key => fresh (mem_map.mpr ⟨other, known, key.trans same.symm⟩)
      grind [putEntry]
    · have differ : (conn.gkey == gkey) = false := by simpa using Ne.symm same
      rw [putEntry, if_neg same, mem_cons, induction once, lookup_cons, differ]
      grind

theorem lookup_of_mem (once : (entries.map Prod.fst).Nodup) {e : GraphKey × GraphEntry}
    (member : e ∈ entries) : entries.lookup e.1 = some e.2 := by
  induction entries with
  | nil => cases member
  | cons first rest induction =>
    obtain ⟨fresh, once⟩ := nodup_cons.mp once
    rcases mem_cons.mp member with rfl | known
    · rw [lookup_cons, beq_self_eq_true]
    · have differ : (e.1 == first.1) = false := by
        apply beq_false_of_ne
        exact fun same => fresh (same ▸ mem_map_of_mem known)
      rw [lookup_cons, differ]
      exact induction once known

theorem raise_mark (ge : GraphEntry) (conn : Conn) :
    (ge.raise conn).policyAction = ge.policyAction ∧ (ge.raise conn).last = ge.last := by
  unfold GraphEntry.raise
  by_cases dlp : isDlpThreatID conn.threatID = true
  · simp [dlp]
  · by_cases waf : isWafThreatID conn.threatID = true <;> simp [dlp, waf]

theorem report_mark (ge : GraphEntry) (conn : Conn) :
    ((ge.report conn).policyAction, (ge.report conn).last) =
      if ge.last ≤ conn.lastSeenAt then (conn.policyAction.toNat, conn.lastSeenAt)
      else (ge.policyAction, ge.last) := by
  simp only [GraphEntry.report, raise_mark]
  split
  · rfl
  · simp only [raise_mark]

/-- A report that is older than its entry leaves what the aggregation reads. -/
theorem marks_putEntry_older {own : GraphEntry} (found : entries.lookup conn.gkey = some own)
    (older : conn.lastSeenAt < own.last) : marks (putEntry conn entries) = marks entries := by
  induction entries with
  | nil => cases found
  | cons first rest induction =>
    obtain ⟨gkey, ge⟩ := first
    by_cases same : gkey = conn.gkey
    · subst same
      rw [lookup_cons, beq_self_eq_true] at found
      cases found
      have kept := report_mark own conn
      rw [if_neg (by omega)] at kept
      simp only [putEntry, if_true, marks, map_cons, kept]
    · have differ : (conn.gkey == gkey) = false := by simpa using Ne.symm same
      rw [lookup_cons, differ] at found
      simpa [putEntry, same, marks] using induction found

theorem putEntry_replaced (once : (entries.map Prod.fst).Nodup)
    (updates : ∀ own ∈ entries.lookup conn.gkey, own.last ≤ conn.lastSeenAt) :
    Replaced (marks entries) (marks (putEntry conn entries))
      (marks (entries.filter (·.1 ≠ conn.gkey)))
      (conn.gkey.toActionKey, conn.policyAction.toNat, conn.lastSeenAt) := by
  have added := report_mark ((entries.lookup conn.gkey).getD .new) conn
  rw [if_pos (by
    cases found : entries.lookup conn.gkey with
    | none => exact Nat.zero_le _
    | some own => exact updates own found)] at added
  constructor
  · intro m
    simp only [marks, mem_map, mem_putEntry once, mem_filter, decide_eq_true_eq]
    constructor
    · rintro ⟨e, stays | rfl, rfl⟩
      · exact .inl ⟨e, stays, rfl⟩
      · exact .inr (congrArg _ added)
    · rintro (⟨e, stays, rfl⟩ | rfl)
      · exact ⟨e, .inl stays, rfl⟩
      · exact ⟨_, .inr rfl, congrArg _ added⟩
  · exact map_subset _ (filter_subset_self _)
  · intro m member
    obtain ⟨e, known, rfl⟩ := mem_map.mp member
    by_cases own : e.1 = conn.gkey
    · exact .inr ⟨congrArg GraphKey.toActionKey own, updates e.2 (own ▸ lookup_of_mem once known)⟩
    · exact .inl (mem_map_of_mem (by simp [known, own]))

theorem mem_rivals {m : ActionMark} : m ∈ rivals attr conn ↔
    m ∈ marks (attr.entries.filter (·.1 ≠ conn.gkey)) ∧ m.1 = conn.gkey.toActionKey := by
  simp only [rivals, marks, mem_map, mem_filter, decide_eq_true_eq]
  constructor
  · rintro ⟨e, ⟨known, other, same⟩, rfl⟩
    exact ⟨⟨e, ⟨known, other⟩, rfl⟩, same⟩
  · rintro ⟨⟨e, ⟨known, other⟩, rfl⟩, same⟩
    exact ⟨e, ⟨known, other, same⟩, rfl⟩

structure ActionHolds (attr : GraphAttr) : Prop where
  once : (attr.entries.map Prod.fst).Nodup
  ties : TiesAgree (marks attr.entries)
  action : Aggregates (marks attr.entries) attr.policyAction

theorem noteLinkAction_raised (raised : attr.policyAction ≤ conn.policyAction.toNat)
    (updates : ∀ own ∈ attr.entries.lookup conn.gkey, own.last ≤ conn.lastSeenAt) :
    noteLinkAction attr conn = (conn.policyAction.toNat, false) := by
  unfold noteLinkAction
  cases found : attr.entries.lookup conn.gkey with
  | none => simp [raised]
  | some own => simp [updates own found, raised]

theorem noteLinkAction_lowered (lowered : ¬attr.policyAction ≤ conn.policyAction.toNat) :
    (noteLinkAction attr conn).1 = attr.policyAction := by
  unfold noteLinkAction
  cases attr.entries.lookup conn.gkey with
  | none => simp [lowered]
  | some own => by_cases updates : own.last ≤ conn.lastSeenAt <;> simp [lowered, updates]

/-- A timed report that brings no new aggregation keeps the action of the link
that of its entries. -/
theorem ActionHolds.noted (holds : ActionHolds attr)
    (updates : ∀ own ∈ attr.entries.lookup conn.gkey, own.last ≤ conn.lastSeenAt)
    (timed : Timed attr conn) (settled : (noteLinkAction attr conn).2 = false) :
    Aggregates (marks (putEntry conn attr.entries)) (noteLinkAction attr conn).1 := by
  have replaced := putEntry_replaced holds.once updates
  obtain ⟨tied, raised, lowered⟩ := timed
  have ties := fun m stays same => tied m (mem_rivals.mpr ⟨stays, same⟩)
  by_cases newest : ∀ m ∈ rivals attr conn, m.2.2 ≤ conn.lastSeenAt
  · have latest := fun m stays same => newest m (mem_rivals.mpr ⟨stays, same⟩)
    by_cases raises : attr.policyAction ≤ conn.policyAction.toNat
    · rw [noteLinkAction_raised raises updates]
      exact replaced.raises holds.action latest ties raises
    · have known : ∃ own ∈ attr.entries.lookup conn.gkey,
          own.policyAction ≤ conn.policyAction.toNat := by
        unfold noteLinkAction at settled
        cases found : attr.entries.lookup conn.gkey with
        | none => simp [found, raises] at settled
        | some own => simpa [found, raises, updates own found] using settled
      obtain ⟨own, found, above⟩ := known
      obtain ⟨m, top, leads, different, reached⟩ :=
        lowered own found above (Nat.lt_of_not_le raises) newest
      rw [noteLinkAction_lowered raises]
      exact replaced.keeps holds.action latest ties (Nat.le_of_not_le raises) top leads different
        reached
  · obtain ⟨m, rival, later⟩ := not_forall₂.mp newest
    obtain ⟨stays, same⟩ := mem_rivals.mp rival
    have kept : (noteLinkAction attr conn).1 = attr.policyAction := by
      by_cases raises : attr.policyAction ≤ conn.policyAction.toNat
      · rw [noteLinkAction_raised raises updates]
        by_contra differ
        exact newest (raised (by omega))
      · exact noteLinkAction_lowered raises
    rw [kept]
    exact replaced.older holds.action stays same (Nat.lt_of_not_le later)

theorem recalcConversation_action {enum : Enumeration} (once : (entries.map Prod.fst).Nodup)
    (ties : TiesAgree (marks entries)) : ActionHolds (recalcConversation enum entries) := by
  have perm : (marks (enum.order entries)).Perm (marks entries) := (enum.perm entries).map _
  refine ⟨once, ties, ?_⟩
  apply Aggregates.congr fun m => perm.mem_iff
  exact getAggregatedAction_aggregates (ties.subset perm.subset)

theorem putEntry_once (once : (entries.map Prod.fst).Nodup) :
    ((putEntry conn entries).map Prod.fst).Nodup := by
  rw [putEntry_keys]
  split
  · exact once
  next new => exact nodup_append.mpr ⟨once, by simp, by grind⟩

theorem Replaced.ties (replaced : Replaced old new others r) (ties : TiesAgree old)
    (tied : ∀ m ∈ others, m.1 = r.1 → m.2.2 = r.2.2 → m.2.1 = r.2.1) : TiesAgree new := by
  intro m member other known same together
  rcases (replaced.after m).mp member with stays | rfl
  · rcases (replaced.after other).mp known with keeps | rfl
    · exact ties m (replaced.within stays) other (replaced.within keeps) same together
    · exact tied m stays same together
  · rcases (replaced.after other).mp known with keeps | rfl
    · exact (tied other keeps same.symm together.symm).symm
    · rfl

/-- The link behind a report, before entries are dropped and the action is
aggregated again. -/
theorem ActionHolds.put (holds : ActionHolds attr)
    (timed : (∀ own ∈ attr.entries.lookup conn.gkey, own.last ≤ conn.lastSeenAt) →
      Timed attr conn) :
    TiesAgree (marks (putEntry conn attr.entries)) ∧
      ((noteLinkAction attr conn).2 = false →
        Aggregates (marks (putEntry conn attr.entries)) (noteLinkAction attr conn).1) := by
  by_cases updates : ∀ own ∈ attr.entries.lookup conn.gkey, own.last ≤ conn.lastSeenAt
  · refine ⟨?_, holds.noted updates (timed updates)⟩
    apply (putEntry_replaced holds.once updates).ties holds.ties
    exact fun m stays same => (timed updates).1 m (mem_rivals.mpr ⟨stays, same⟩)
  · obtain ⟨own, found, older⟩ := not_forall₂.mp updates
    have kept : noteLinkAction attr conn = (attr.policyAction, false) := by
      unfold noteLinkAction
      rw [found]
      exact if_neg older
    rw [marks_putEntry_older found (Nat.lt_of_not_le older), kept]
    exact ⟨holds.ties, fun _ => holds.action⟩

theorem reportToLink_action {enum : Enumeration} (holds : ActionHolds attr)
    (timed : (∀ own ∈ attr.entries.lookup conn.gkey, own.last ≤ conn.lastSeenAt) →
      Timed attr conn) : ActionHolds (reportToLink enum conn attr) := by
  obtain ⟨ties, noted⟩ := holds.put timed
  have sub : Sublist (reportEntries attr conn) (putEntry conn attr.entries) := by
    simp only [reportEntries]
    split
    · exact filter_sublist
    · exact .refl _
  have onceLeft := (sub.map Prod.fst).nodup (putEntry_once holds.once)
  have tiesLeft := ties.subset (sub.map _).subset
  have recalculated : ActionHolds (recalcConversation enum (reportEntries attr conn)) :=
    recalcConversation_action onceLeft tiesLeft
  simp only [reportToLink]
  split
  next removed =>
    obtain ⟨sorted, perm, _, rfl⟩ := removeOldEntries_eq removed
    have left := (drop_sublist 100 sorted).subset
    apply recalcConversation_action
    · exact ((drop_sublist _ _).map _).nodup ((perm.map _).nodup_iff.mpr onceLeft)
    · exact tiesLeft.subset (map_subset _ (Subset.trans left perm.subset))
  · split
    · exact ⟨onceLeft, tiesLeft, recalculated.action⟩
    next settled =>
      obtain ⟨noRecalc, noneDropped⟩ := Bool.or_eq_false_iff.mp (Bool.not_eq_true _ ▸ settled)
      refine ⟨onceLeft, tiesLeft, ?_⟩
      simpa [reportEntries, noneDropped] using noted noRecalc

end Action

/-- The action of every conversation is the aggregated action of its entries
in every order. -/
theorem conversation_action_aggregated (events : List (GraphEvent × Enumeration))
    (timed : All graphStep ReportsTimed (fun _ => none) events) :
    AllLinks (fun attr => ∀ order, order.Perm attr.entries →
      attr.policyAction = getAggregatedAction order) (graphRun events) := by
  have holds : AllLinks ActionHolds (graphRun events) := by
    refine foldl_holds ?_ (by simp [AllLinks]) timed
    rintro graph ⟨event, enum⟩ holds timed
    apply holds.step
    · rintro conn rfl attr (known | rfl)
      · exact reportToLink_action (holds _ attr known) (timed attr known)
      · refine reportToLink_action ⟨nodup_nil, by simp [TiesAgree, marks], ?_⟩ ?_
        · simp [Aggregates, marks]
        · simp [Timed, rivals, marks]
    · intro attr kept before sub _
      exact recalcConversation_action ((sub.map _).nodup before.once)
        (before.ties.subset (sub.map _).subset)
  intro link attr found order perm
  have before := holds link attr found
  have same : (marks order).Perm (marks attr.entries) := perm.map _
  have aggregates := getAggregatedAction_aggregates (before.ties.subset same.subset)
  exact before.action.unique (aggregates.congr fun m => same.mem_iff)

instance (attr : GraphAttr) (conn : Conn) : Decidable (Timed attr conn) :=
  inferInstanceAs (Decidable (_ ∧ _ ∧ _))

/-- A denied client, another one that passes later and the first again with a
violation, whose entry is then deleted. -/
theorem conversation_action_of_clients :
    AllLinks (fun attr => ∀ order, order.Perm attr.entries →
      attr.policyAction = getAggregatedAction order)
        (graphRun [(.report (connTo 1001 1 5 7), mapOrder), (.report (connTo 1001 2 2 8), mapOrder),
          (.report (connTo 1001 1 4 9), mapOrder),
          (.deleteByKey ("client", "server") (connTo 1001 1 4 9).gkey, mapOrder)]) := by
  apply conversation_action_aggregated
  refine ⟨?_, ?_, ?_, trivial, trivial⟩
  · rintro attr ⟨⟩
  · rintro attr ⟨⟩ _
    decide
  · rintro attr ⟨⟩ _
    decide

/-- Two clients with the same port and application, seen in the same second. -/
theorem conversation_action_by_order :
    (graphRun [(.report (connTo 1001 1 2 7), mapOrder), (.report (connTo 1001 2 4 7), mapOrder)]
      ("client", "server")).map (fun attr => (attr.policyAction,
        getAggregatedAction attr.entries, getAggregatedAction attr.entries.reverse)) =
          some (4, 2, 4) := by
  decide

end NeuVector.Controller.Conversation
