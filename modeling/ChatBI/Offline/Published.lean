import ChatBI.Lib.Ownership
import ChatBI.Offline.Publication
import Mathlib.Tactic.IntervalCases

/-!
# A published asset stays readable

However builds are interleaved, and wherever they fail or die, the asset that the pointer names is
complete from its publication on, and it can be loaded.
-/

namespace ChatBI.Offline

open ChatBI.Lib ChatBI.Lib.Ownership ChatBI.Relationships

section Plan

variable {b : Build} {i pc n : Nat} {op : Op} {name : String}

lemma physicalName_inj {c d : String}
    (h : b.physicalName c = b.physicalName d) : lowered c = lowered d := by
  have hlist := congrArg String.toList h
  change (b.collectionPrefix ++ "_" ++ lowered c ++ "__" ++ b.buildId).toList =
    (b.collectionPrefix ++ "_" ++ lowered d ++ "__" ++ b.buildId).toList at hlist
  simp only [String.toList_append, List.append_cancel_right_eq, List.append_cancel_left_eq] at hlist
  exact String.toList_injective hlist

lemma table_ne_column : b.physicalName tableCollection ≠ b.physicalName columnCollection :=
  fun h => absurd (physicalName_inj h) (by decide)

lemma table_ne_metric : b.physicalName tableCollection ≠ b.physicalName metricCollection :=
  fun h => absurd (physicalName_inj h) (by decide)

lemma column_ne_metric : b.physicalName columnCollection ≠ b.physicalName metricCollection :=
  fun h => absurd (physicalName_inj h) (by decide)

lemma plan_eq : b.plan = [.checkDirectories, .makeStaging,
    .embed tableCollection, .create (b.physicalName tableCollection),
    .upsert (b.physicalName tableCollection),
    .validate (b.physicalName tableCollection) (b.documentCount tableCollection),
    .embed columnCollection, .create (b.physicalName columnCollection),
    .upsert (b.physicalName columnCollection),
    .validate (b.physicalName columnCollection) (b.documentCount columnCollection),
    .embed metricCollection, .create (b.physicalName metricCollection),
    .upsert (b.physicalName metricCollection),
    .validate (b.physicalName metricCollection) (b.documentCount metricCollection),
    .writeGraph, .writeManifest, .publishDirectory, .writeTemporary, .replacePointer,
    .checkTemporary] := rfl

lemma lt_of_plan (h : b.plan[pc]? = some op) : pc < 20 := (List.getElem?_eq_some_iff.mp h).1

/-- An operation that is in the plan once is at its place. -/
lemma place_of_plan (h : b.plan[pc]? = some op) :
    (op = .makeStaging ↔ pc = 1) ∧ (op = .writeGraph ↔ pc = 14) ∧ (op = .writeManifest ↔ pc = 15) ∧
      (op = .publishDirectory ↔ pc = 16) ∧ (op = .replacePointer ↔ pc = 18) ∧
      (op = .checkTemporary ↔ pc = 19) := by
  have hlt := lt_of_plan h
  interval_cases pc <;> cases h <;> simp

/-- Collections are worked on before the files are written. -/
lemma collection_place (h : b.plan[pc]? = some op) (hop : op = .create name ∨ op = .upsert name) :
    2 < pc ∧ pc < 14 := by
  have hlt := lt_of_plan h
  interval_cases pc <;> cases h <;> simp_all

/-- A collection that was validated is not written to any more. -/
lemma upsert_ne_validate {m : String} (h : b.plan[pc]? = some (.upsert name)) (hi : i < pc)
    (hv : b.plan[i]? = some (.validate m n)) : m ≠ name := by
  have hlt := lt_of_plan h
  interval_cases pc <;> cases h <;> interval_cases i <;> cases hv
  · exact table_ne_column
  · exact table_ne_metric
  · exact column_ne_metric

/-- A collection is created before it is validated. -/
lemma create_of_validate (hv : b.plan[i]? = some (.validate name n)) :
    ∃ j, j < i ∧ b.plan[j]? = some (.create name) := by
  have hlt := lt_of_plan hv
  interval_cases i <;> cases hv
  · exact ⟨3, by omega, rfl⟩
  · exact ⟨7, by omega, rfl⟩
  · exact ⟨11, by omega, rfl⟩

/-- A collection is created before documents are written to it. -/
lemma create_of_upsert (h : b.plan[pc]? = some (.upsert name)) :
    ∃ j, j < pc ∧ b.plan[j]? = some (.create name) := by
  have hlt := lt_of_plan h
  interval_cases pc <;> cases h
  · exact ⟨3, by omega, rfl⟩
  · exact ⟨7, by omega, rfl⟩
  · exact ⟨11, by omega, rfl⟩

/-- Every collection is validated before the files are written. -/
lemma validate_of_collection {c : String} (hc : c ∈ collections) :
    ∃ i, i < 14 ∧ b.plan[i]? = some (.validate (b.physicalName c) (b.documentCount c)) := by
  simp only [collections, List.mem_cons, List.not_mem_nil, or_false] at hc
  rcases hc with rfl | rfl | rfl
  · exact ⟨5, by omega, rfl⟩
  · exact ⟨9, by omega, rfl⟩
  · exact ⟨13, by omega, rfl⟩

/-- The name of a collection that an operation creates. -/
def Op.created? : Op → Option String
  | create name => some name
  | _ => none

/-- The collections that have been created in front of an operation. -/
def Build.createdBefore (b : Build) (pc : Nat) : List String := (b.plan.take pc).filterMap Op.created?

lemma createdBefore_succ (h : b.plan[pc]? = some op) :
    b.createdBefore (pc + 1) = b.createdBefore pc ++ op.created?.toList := by
  rw [Build.createdBefore, List.take_add_one, h, List.filterMap_append]
  cases hcreated : op.created? <;> simp [hcreated, Build.createdBefore]

lemma createdBefore_of_none (h : b.plan[pc]? = some op) (hnone : op.created? = none) :
    b.createdBefore (pc + 1) = b.createdBefore pc := by
  rw [createdBefore_succ h, hnone]
  exact List.append_nil _

lemma mem_createdBefore (h : b.plan[i]? = some (.create name)) (hi : i < pc) :
    name ∈ b.createdBefore pc := by
  refine List.mem_filterMap.mpr ⟨.create name, ?_, rfl⟩
  rw [List.mem_iff_getElem?]
  exact ⟨i, by rw [List.getElem?_take_of_lt hi, h]⟩

lemma nodup_createdBefore : (b.createdBefore pc).Nodup := by
  have hnames : b.plan.filterMap Op.created? = [b.physicalName tableCollection,
      b.physicalName columnCollection, b.physicalName metricCollection] := rfl
  have hall : (b.plan.filterMap Op.created?).Nodup := by
    rw [hnames]
    simp [table_ne_column, table_ne_metric, column_ne_metric]
  exact hall.sublist ((List.take_sublist pc b.plan).filterMap _)

end Plan

section Progress

variable {b : Build} {pc : Nat} {l : Locals} {store store' : Resource → Option Content} {op : Op}

/-- The directory with the files of a build. -/
def Build.directory (b : Build) (pc : Nat) : Resource :=
  if 16 < pc then .final b.buildId else .staging b.buildId

/-- What a build has done when it stands at an operation. -/
structure Progress (store : Resource → Option Content) (b : Build) (pc : Nat) (l : Locals) : Prop where
  created : l.createdCollections = b.createdBefore pc
  staging : l.stagingDirCreated = true ↔ 1 < pc ∧ pc ≤ 16
  final : l.finalDirCreated = true ↔ 16 < pc
  unpublished : l.pointerPublished = false
  validated : ∀ i name n, i < pc → b.plan[i]? = some (.validate name n) →
    store (.collection name) = some (.documents n)
  graph : 14 < pc → ∃ manifest, store (b.directory pc) = some (.files (some b.graph.toJson) manifest)
  manifest : 15 < pc → ∃ graph, store (b.directory pc) = some (.files graph (some b.manifest))

lemma progress_begin : Progress store b 0 noLocals := by
  refine ⟨rfl, by simp [noLocals], by simp [noLocals], rfl, ?_, ?_, ?_⟩ <;> intros <;> omega

lemma mem_cleanup {r : Resource} : r ∈ l.cleanup b ↔
    (∃ name ∈ l.createdCollections, r = .collection name) ∨
      (l.stagingDirCreated = true ∧ r = .staging b.buildId) ∨
      (l.finalDirCreated = true ∧ l.pointerPublished = false ∧ r = .final b.buildId) := by
  simp only [Locals.cleanup, List.mem_append, List.mem_map, List.mem_reverse, Bool.not_eq_true]
  constructor
  · rintro ((⟨name, hname, rfl⟩ | h) | h)
    · exact .inl ⟨name, hname, rfl⟩
    · split at h
      · rename_i hstaging
        exact .inr (.inl ⟨hstaging, List.mem_singleton.mp h⟩)
      · cases h
    · split at h
      · rename_i hfinal
        exact .inr (.inr ⟨hfinal.1, hfinal.2, List.mem_singleton.mp h⟩)
      · cases h
  · rintro (⟨name, hname, rfl⟩ | ⟨hstaging, rfl⟩ | ⟨hfinal, hunpublished, rfl⟩)
    · exact .inl (.inl ⟨name, hname, rfl⟩)
    · exact .inl (.inr (by rw [if_pos hstaging]; exact List.mem_singleton.mpr rfl))
    · exact .inr (by rw [if_pos ⟨hfinal, hunpublished⟩]; exact List.mem_singleton.mpr rfl)

lemma Progress.nodup_cleanup (h : Progress store b pc l) : (l.cleanup b).Nodup := by
  have hcreated : (l.createdCollections.reverse.map Resource.collection).Nodup := by
    rw [List.nodup_map_iff (fun _ _ h => by cases h; rfl), List.nodup_reverse, h.created]
    exact nodup_createdBefore
  rw [Locals.cleanup, List.append_assoc, List.nodup_append]
  refine ⟨hcreated, ?_, ?_⟩
  · split <;> split <;> simp
  · intro r hr r' hr' heq
    subst heq
    obtain ⟨name, -, rfl⟩ := List.mem_map.mp hr
    split at hr' <;> split at hr' <;> simp at hr'

lemma Progress.directory_mem (h : Progress store b pc l) (hpc : 1 < pc) :
    b.directory pc ∈ l.cleanup b := by
  rw [mem_cleanup, Build.directory]
  by_cases hfinal : 16 < pc
  · rw [if_pos hfinal]
    exact .inr (.inr ⟨h.final.mpr hfinal, h.unpublished, rfl⟩)
  · rw [if_neg hfinal]
    exact .inr (.inl ⟨h.staging.mpr (by omega), rfl⟩)

/-- The progress of a build is in what it owns. -/
lemma Progress.congr (h : Progress store b pc l) (hsame : ∀ r ∈ l.cleanup b, store' r = store r) :
    Progress store' b pc l := by
  refine ⟨h.created, h.staging, h.final, h.unpublished, ?_, ?_, ?_⟩
  · intro i name n hi hv
    obtain ⟨j, hj, hcreate⟩ := create_of_validate hv
    rw [hsame, h.validated i name n hi hv]
    rw [mem_cleanup, h.created]
    exact .inl ⟨name, mem_createdBefore hcreate (by omega), rfl⟩
  · intro hpc
    rw [hsame _ (h.directory_mem (by omega))]
    exact h.graph hpc
  · intro hpc
    rw [hsame _ (h.directory_mem (by omega))]
    exact h.manifest hpc

/-- An operation that creates nothing takes the build one step further. -/
lemma Progress.advance (h : Progress store b pc l) (hop : b.plan[pc]? = some op)
    (hcreated : op.created? = none) (hplace : pc ≠ 1 ∧ pc ≠ 14 ∧ pc ≠ 15 ∧ pc ≠ 16)
    (hvalid : ∀ name n, op = .validate name n → store (.collection name) = some (.documents n)) :
    Progress store b (pc + 1) l := by
  have hdirectory : b.directory (pc + 1) = b.directory pc := by
    unfold Build.directory
    split <;> split <;> first | rfl | omega
  refine ⟨?_, ?_, ?_, h.unpublished, ?_, ?_, ?_⟩
  · rw [createdBefore_of_none hop hcreated]
    exact h.created
  · rw [h.staging]
    omega
  · rw [h.final]
    omega
  · intro i name n hi hv
    by_cases hlast : i = pc
    · subst hlast
      rw [hop] at hv
      exact hvalid name n (Option.some.inj hv)
    · exact h.validated i name n (by omega) hv
  · intro hpc
    rw [hdirectory]
    exact h.graph (by omega)
  · intro hpc
    rw [hdirectory]
    exact h.manifest (by omega)

end Progress

section Sound

/-- What the asset of a build is made of. -/
def Build.resources (b : Build) : List Resource :=
  .final b.buildId :: collections.map fun c => .collection (b.physicalName c)

structure Complete (store : Resource → Option Content) (b : Build) : Prop where
  files : store (.final b.buildId) = some (.files (some b.graph.toJson) (some b.manifest))
  documents : ∀ c ∈ collections,
    store (.collection (b.physicalName c)) = some (.documents (b.documentCount c))

/-- What a build may still change. From the replacement of the pointer on this is nothing. -/
def Phase.owned (b : Build) : Phase → List Resource
  | .running pc l => if pc ≤ 18 then l.cleanup b else []
  | .cleaning todo => todo
  | .ended => []

/-- The published assets have no build as their owner. -/
def World.owns (w : World) : Option Nat → Resource → Prop
  | none, r => ∃ b ∈ w.storage.history, r ∈ b.resources
  | some k, r => ∃ b p, w.builds k = some (b, p) ∧ r ∈ p.owned b

structure Sound (w : World) : Prop where
  exclusive : Exclusive w.owns w.storage.store
  running : ∀ k b pc l, w.builds k = some (b, .running pc l) →
    b.Valid ∧ (pc ≤ 18 → Progress w.storage.store b pc l)
  cleaning : ∀ k b todo, w.builds k = some (b, .cleaning todo) → todo.Nodup
  published : ∀ b ∈ w.storage.history, b.Valid ∧ Complete w.storage.store b
  current : w.storage.current = w.storage.history.head?.map Build.pointer

variable {w : World} {k : Nat} {b : Build} {p p₀ : Phase} {s : Storage}

lemma owns_some (hk : w.builds k = some (b, p)) (r : Resource) :
    w.owns (some k) r ↔ r ∈ p.owned b := by
  simp only [World.owns, hk, Option.some.injEq, Prod.mk.injEq]
  constructor
  · rintro ⟨_, _, ⟨rfl, rfl⟩, hr⟩
    exact hr
  · exact fun hr => ⟨b, p, ⟨rfl, rfl⟩, hr⟩

lemma builds_put (j : Nat) :
    (w.put k b p s).builds j = if j = k then some (b, p) else w.builds j := by
  rw [World.put]
  by_cases hj : j = k
  · subst hj
    simp
  · simp [hj]

lemma owns_put_self (r : Resource) : (w.put k b p s).owns (some k) r ↔ r ∈ p.owned b :=
  owns_some (by rw [builds_put, if_pos rfl]) r

lemma owns_put_of_ne {j : Nat} (hj : j ≠ k) (r : Resource) :
    (w.put k b p s).owns (some j) r ↔ w.owns (some j) r := by
  simp only [World.owns, builds_put, if_neg hj]

/-- A step of a build on what it owns. -/
lemma Sound.act (h : Sound w) {before : List Resource}
    (hown : ∀ r ∈ before, w.owns (some k) r) (hhistory : s.history = w.storage.history)
    (hcurrent : s.current = w.storage.current)
    (hframe : ∀ r, s.store r ≠ w.storage.store r → r ∈ before ∨ w.storage.store r = none)
    (hgains : ∀ r ∈ p.owned b, r ∈ before ∨ w.storage.store r = none)
    (hkept : ∀ r ∈ p.owned b, s.store r ≠ none)
    (hrunning : ∀ pc l, p = .running pc l → b.Valid ∧ (pc ≤ 18 → Progress s.store b pc l))
    (hcleaning : ∀ todo, p = .cleaning todo → todo.Nodup) : Sound (w.put k b p s) := by
  have hacts : Acts w.owns (w.put k b p s).owns w.storage.store s.store (some k) := by
    refine ⟨fun r hr => (hframe r hr).imp_left (hown r), ?_, ?_, ?_⟩
    · intro r hr
      exact (hgains r ((owns_put_self r).mp hr)).imp_left (hown r)
    · intro r hr
      exact hkept r ((owns_put_self r).mp hr)
    · intro j hj r hr
      cases j with
      | none =>
        obtain ⟨c, hc, hr⟩ := hr
        exact ⟨c, hhistory ▸ hc, hr⟩
      | some j => exact (owns_put_of_ne (fun hjk => hj (congrArg some hjk)) r).mp hr
  refine ⟨hacts.exclusive h.exclusive, ?_, ?_, ?_, ?_⟩
  · intro j c pc l hj
    rw [builds_put] at hj
    by_cases hjk : j = k
    · rw [if_pos hjk, Option.some.injEq, Prod.mk.injEq] at hj
      obtain ⟨rfl, hp⟩ := hj
      exact hrunning pc l hp
    · rw [if_neg hjk] at hj
      obtain ⟨hvalid, hprogress⟩ := h.running j c pc l hj
      refine ⟨hvalid, fun hpc => (hprogress hpc).congr fun r hr => ?_⟩
      apply hacts.store_eq h.exclusive (fun heq => hjk (Option.some.inj heq))
      rw [owns_some hj, Phase.owned, if_pos hpc]
      exact hr
  · intro j c todo hj
    rw [builds_put] at hj
    by_cases hjk : j = k
    · rw [if_pos hjk, Option.some.injEq, Prod.mk.injEq] at hj
      exact hcleaning todo hj.2
    · rw [if_neg hjk] at hj
      exact h.cleaning j c todo hj
  · intro c hc
    have hc' : c ∈ w.storage.history := hhistory ▸ hc
    obtain ⟨hvalid, hfiles, hdocuments⟩ := h.published c hc'
    have hsame : ∀ r ∈ c.resources, s.store r = w.storage.store r := fun r hr =>
      @Acts.store_eq _ _ _ _ _ _ _ _ none r hacts h.exclusive (by simp) ⟨c, hc', hr⟩
    refine ⟨hvalid, ?_, fun d hd => ?_⟩
    · change s.store _ = _
      rw [hsame _ List.mem_cons_self, hfiles]
    · change s.store _ = _
      rw [hsame _ (List.mem_cons_of_mem _ (List.mem_map_of_mem hd)), hdocuments d hd]
  · change s.current = s.history.head?.map _
    rw [hcurrent, hhistory, h.current]

/-- A build that owns nothing any more. -/
lemma Sound.rest (h : Sound w) (hempty : p.owned b = []) (hcleaning : ∀ todo, p = .cleaning todo → todo = [])
    (hrunning : ∀ pc l, p = .running pc l → b.Valid ∧ (pc ≤ 18 → Progress w.storage.store b pc l)) :
    Sound (w.put k b p w.storage) := by
  refine @Sound.act w k b p w.storage h [] (fun _ hr => absurd hr List.not_mem_nil) rfl rfl
    (fun _ hr => absurd rfl hr) ?_ ?_ hrunning ?_
  · intro r hr
    rw [hempty] at hr
    cases hr
  · intro r hr
    rw [hempty] at hr
    cases hr
  · intro todo htodo
    rw [hcleaning todo htodo]
    exact List.nodup_nil

lemma put_store {r r' : Resource} {v : Option Content} :
    (s.put r v).store r' = if r' = r then v else s.store r' :=
  Function.update_apply s.store r v r'

/-- What a build does while it is running. -/
lemma Sound.running_act (h : Sound w) {pc : Nat} {l : Locals} (hk : w.builds k = some (b, .running pc l))
    (hpc : pc ≤ 18) (hhistory : s.history = w.storage.history) (hcurrent : s.current = w.storage.current)
    (hframe : ∀ r, s.store r ≠ w.storage.store r → r ∈ l.cleanup b ∨ w.storage.store r = none)
    (hgains : ∀ r ∈ p.owned b, r ∈ l.cleanup b ∨ w.storage.store r = none)
    (hkept : ∀ r ∈ p.owned b, s.store r ≠ none)
    (hrunning : ∀ pc l, p = .running pc l → b.Valid ∧ (pc ≤ 18 → Progress s.store b pc l))
    (hcleaning : ∀ todo, p = .cleaning todo → todo.Nodup) : Sound (w.put k b p s) := by
  refine h.act (fun r hr => ?_) hhistory hcurrent hframe hgains hkept hrunning hcleaning
  rw [owns_some hk, Phase.owned, if_pos hpc]
  exact hr

/-- What a running build owns exists. -/
lemma Sound.present (h : Sound w) {pc : Nat} {l : Locals} (hk : w.builds k = some (b, .running pc l))
    (hpc : pc ≤ 18) {r : Resource} (hr : r ∈ l.cleanup b) : w.storage.store r ≠ none := by
  apply h.exclusive.present (some k)
  rw [owns_some hk, Phase.owned, if_pos hpc]
  exact hr

/-- An operation that raises changes nothing but what the build owns or what did not exist. -/
lemma raised_frame {pc : Nat} {l : Locals} {op : Op} (hprogress : Progress s.store b pc l)
    (hop : b.plan[pc]? = some op) (effect : Option Nat) :
    (op.raised b effect s).history = s.history ∧ (op.raised b effect s).current = s.current ∧
      (∀ r, (op.raised b effect s).store r ≠ s.store r → r ∈ l.cleanup b ∨ s.store r = none) ∧
      ∀ r, s.store r ≠ none → (op.raised b effect s).store r ≠ none := by
  have hput : ∀ r v, (r ∈ l.cleanup b ∨ s.store r = none) →
      (∀ r', (s.put r (some v)).store r' ≠ s.store r' → r' ∈ l.cleanup b ∨ s.store r' = none) ∧
        ∀ r', s.store r' ≠ none → (s.put r (some v)).store r' ≠ none := by
    intro r v hr
    refine ⟨fun r' hne => ?_, fun r' hr' => ?_⟩
    · rw [put_store] at hne
      by_cases heq : r' = r
      · rw [heq]
        exact hr
      · rw [if_neg heq] at hne
        exact absurd rfl hne
    · rw [put_store]
      split
      · simp
      · exact hr'
  have hsame : (∀ r, s.store r ≠ s.store r → r ∈ l.cleanup b ∨ s.store r = none) ∧
      ∀ r, s.store r ≠ none → s.store r ≠ none := ⟨fun _ hne => absurd rfl hne, fun _ hr => hr⟩
  have hdirectory : op = .writeGraph ∨ op = .writeManifest → .staging b.buildId ∈ l.cleanup b := by
    intro hwrite
    have hplace := place_of_plan hop
    rw [mem_cleanup]
    refine .inr (.inl ⟨hprogress.staging.mpr ?_, rfl⟩)
    rcases hwrite with hwrite | hwrite
    · have := hplace.2.1.mp hwrite
      omega
    · have := hplace.2.2.1.mp hwrite
      omega
  cases op with
  | create name =>
    rw [Op.raised]
    split
    · rename_i hnew
      exact ⟨rfl, rfl, hput _ _ (.inr (Option.isNone_iff_eq_none.mp hnew.2))⟩
    · exact ⟨rfl, rfl, hsame⟩
  | upsert name =>
    unfold Op.raised
    simp only
    split
    · obtain ⟨j, hj, hcreate⟩ := create_of_upsert hop
      refine ⟨rfl, rfl, hput _ _ (.inl ?_)⟩
      rw [mem_cleanup, hprogress.created]
      exact .inl ⟨name, mem_createdBefore hcreate hj, rfl⟩
    · exact ⟨rfl, rfl, hsame⟩
  | writeGraph =>
    unfold Op.raised
    simp only
    split
    · exact ⟨rfl, rfl, hput _ _ (.inl (hdirectory (.inl rfl)))⟩
    · exact ⟨rfl, rfl, hsame⟩
  | writeManifest =>
    unfold Op.raised
    simp only
    split
    · exact ⟨rfl, rfl, hput _ _ (.inl (hdirectory (.inr rfl)))⟩
    · exact ⟨rfl, rfl, hsame⟩
  | checkDirectories | makeStaging | embed _ | validate _ _ | publishDirectory | writeTemporary
  | replacePointer | checkTemporary => exact ⟨rfl, rfl, hsame⟩

/-- A build that raises starts its cleaning up. -/
lemma Sound.raise (h : Sound w) {pc : Nat} {l : Locals} {op : Op} {effect : Option Nat}
    (hk : w.builds k = some (b, .running pc l)) (hop : b.plan[pc]? = some op)
    (hcheck : op ≠ .checkTemporary) :
    Sound (w.put k b (.cleaning (l.cleanup b)) (op.raised b effect w.storage)) := by
  have hpc : pc ≤ 18 := by
    have hlt := lt_of_plan hop
    have hne : pc ≠ 19 := fun heq => hcheck ((place_of_plan hop).2.2.2.2.2.mpr heq)
    omega
  have hprogress := (h.running k b pc l hk).2 hpc
  obtain ⟨hhistory, hcurrent, hframe, hkept⟩ := raised_frame hprogress hop effect
  refine h.running_act hk hpc hhistory hcurrent hframe (fun r hr => .inl hr) ?_ ?_ ?_
  · exact fun r hr => hkept r (h.present hk hpc hr)
  · intro pc l heq
    cases heq
  · intro todo htodo
    cases htodo
    exact hprogress.nodup_cleanup

/-- A step of the cleaning up. -/
lemma Sound.clean (h : Sound w) {todo : List Resource} {removed raised : Bool}
    (hk : w.builds k = some (b, .cleaning todo)) :
    Sound (w.put k b (cleanStep w.storage removed raised todo).2
      (cleanStep w.storage removed raised todo).1) := by
  have hown : ∀ r ∈ todo, w.owns (some k) r := fun r hr => (owns_some hk r).mpr hr
  have hnodup := h.cleaning k b todo hk
  have hpresent : ∀ r ∈ todo, w.storage.store r ≠ none := fun r hr =>
    h.exclusive.present _ r (hown r hr)
  cases todo with
  | nil => exact h.rest rfl (fun _ heq => by cases heq) (fun _ _ heq => by cases heq)
  | cons r todo =>
    obtain ⟨hnew, htail⟩ := List.nodup_cons.mp hnodup
    -- the removal of one resource, whatever becomes of it
    have hremove : ∀ (v : Option Content) (p : Phase), (∀ r' ∈ p.owned b, r' ∈ todo) →
        (∀ pc l, p ≠ .running pc l) → (∀ todo', p = .cleaning todo' → todo'.Nodup) →
        Sound (w.put k b p (w.storage.put r v)) := by
      intro v p howned hrunning hcleaning
      refine h.act hown rfl rfl ?_ (fun r' hr' => .inl (List.mem_cons_of_mem _ (howned r' hr'))) ?_
        (fun pc l heq => absurd heq (hrunning pc l)) hcleaning
      · intro r' hne
        rw [put_store] at hne
        by_cases heq : r' = r
        · rw [heq]
          exact .inl List.mem_cons_self
        · rw [if_neg heq] at hne
          exact absurd rfl hne
      · intro r' hr'
        rw [put_store, if_neg]
        · exact hpresent r' (List.mem_cons_of_mem _ (howned r' hr'))
        · rintro rfl
          exact hnew (howned r' hr')
    have hstay : Sound (w.put k b (.cleaning todo) w.storage) := by
      refine h.act hown rfl rfl (fun _ hne => absurd rfl hne)
        (fun r' hr' => .inl (List.mem_cons_of_mem _ hr'))
        (fun r' hr' => hpresent r' (List.mem_cons_of_mem _ hr')) (fun _ _ heq => by cases heq) ?_
      intro todo' heq
      cases heq
      exact htail
    have hcleaning : ∀ v, Sound (w.put k b (.cleaning todo) (w.storage.put r v)) := fun v =>
      hremove v _ (fun r' hr' => hr') (fun _ _ heq => by cases heq)
        (fun todo' heq => by cases heq; exact htail)
    have hended : ∀ v, Sound (w.put k b .ended (w.storage.put r v)) := fun v =>
      hremove v _ (fun r' hr' => absurd hr' List.not_mem_nil) (fun _ _ heq => by cases heq)
        (fun todo' heq => by cases heq)
    cases r with
    | collection name =>
      simp only [cleanStep]
      split
      · exact hcleaning none
      · exact hstay
    | staging id =>
      simp only [cleanStep]
      split
      · exact hended _
      · exact hcleaning _
    | final id =>
      simp only [cleanStep]
      split
      · exact hended _
      · exact hcleaning _

end Sound

section Perform

variable {w : World} {k n pc : Nat} {b : Build} {l l' : Locals} {s : Storage} {op : Op}

/-- A step of a running build in front of the replacement of the pointer. -/
lemma Sound.running_step (h : Sound w) (hk : w.builds k = some (b, .running pc l)) (hpc : pc ≤ 17)
    (hhistory : s.history = w.storage.history) (hcurrent : s.current = w.storage.current)
    (hframe : ∀ r, s.store r ≠ w.storage.store r → r ∈ l.cleanup b ∨ w.storage.store r = none)
    (hgains : ∀ r ∈ l'.cleanup b, r ∈ l.cleanup b ∨ w.storage.store r = none)
    (hkept : ∀ r ∈ l'.cleanup b, s.store r ≠ none) (hprogress : Progress s.store b (pc + 1) l') :
    Sound (w.put k b (.running (pc + 1) l') s) := by
  have howned : (Phase.running (pc + 1) l').owned b = l'.cleanup b := if_pos (by omega)
  refine h.running_act hk (by omega) hhistory hcurrent hframe ?_ ?_ ?_ (fun _ heq => by cases heq)
  · rw [howned]
    exact hgains
  · rw [howned]
    exact hkept
  · intro pc' l'' heq
    cases heq
    exact ⟨(h.running k b pc l hk).1, fun _ => hprogress⟩

/-- An operation that changes nothing. -/
lemma Sound.idle (h : Sound w) (hk : w.builds k = some (b, .running pc l)) (hpc : pc ≤ 17)
    (hprogress : Progress w.storage.store b (pc + 1) l) :
    Sound (w.put k b (.running (pc + 1) l) w.storage) :=
  h.running_step hk hpc rfl rfl (fun _ hne => absurd rfl hne) (fun _ hr => .inl hr)
    (fun _ hr => h.present hk (by omega) hr) hprogress

/-- An operation that writes one resource, which the build owns then. -/
lemma Sound.write (h : Sound w) (hk : w.builds k = some (b, .running pc l)) (hpc : pc ≤ 17)
    {r : Resource} {v : Content} (hr : r ∈ l.cleanup b ∨ w.storage.store r = none)
    (hcleanup : ∀ r' ∈ l'.cleanup b, r' ∈ l.cleanup b ∨ r' = r)
    (hprogress : Progress (w.storage.put r (some v)).store b (pc + 1) l') :
    Sound (w.put k b (.running (pc + 1) l') (w.storage.put r (some v))) := by
  refine h.running_step hk hpc rfl rfl ?_ ?_ ?_ hprogress
  · intro r' hne
    rw [put_store] at hne
    by_cases heq : r' = r
    · rw [heq]
      exact hr
    · rw [if_neg heq] at hne
      exact absurd rfl hne
  · intro r' hr'
    rcases hcleanup r' hr' with hold | rfl
    · exact .inl hold
    · exact hr
  · intro r' hr'
    rw [put_store]
    split
    · simp
    · rename_i hne
      rcases hcleanup r' hr' with hold | heq
      · exact h.present hk (by omega) hold
      · exact absurd heq hne

lemma Progress.makeStaging (h : Progress s.store b 1 l) {v : Option Content} :
    Progress (s.put (.staging b.buildId) v).store b 2 { l with stagingDirCreated := true } := by
  have hop : b.plan[1]? = some .makeStaging := rfl
  refine ⟨?_, by simp, ?_, h.unpublished, ?_, ?_, ?_⟩
  · rw [createdBefore_of_none hop rfl]
    exact h.created
  · rw [h.final]
    omega
  · intro i name n hi hv
    have hne : i ≠ 1 := by
      rintro rfl
      cases hv
    rw [put_store, if_neg (by simp)]
    exact h.validated i name n (by omega) hv
  · omega
  · omega

lemma Progress.create {name : String} (h : Progress s.store b pc l)
    (hop : b.plan[pc]? = some (.create name)) (hnew : s.store (.collection name) = none)
    {v : Option Content} : Progress (s.put (.collection name) v).store b (pc + 1)
      { l with createdCollections := l.createdCollections ++ [name] } := by
  obtain ⟨hlow, hhigh⟩ := collection_place hop (.inl rfl)
  refine ⟨?_, ?_, ?_, h.unpublished, ?_, by omega, by omega⟩
  · rw [createdBefore_succ hop, ← h.created]
    rfl
  · rw [h.staging]
    omega
  · rw [h.final]
    omega
  · intro i m count hi hv
    by_cases hlast : i = pc
    · subst hlast
      rw [hop] at hv
      cases hv
    · have hold := h.validated i m count (by omega) hv
      rw [put_store, if_neg, hold]
      rintro heq
      rw [heq, hnew] at hold
      cases hold

lemma Progress.upsert {name : String} (h : Progress s.store b pc l)
    (hop : b.plan[pc]? = some (.upsert name)) {v : Option Content} :
    Progress (s.put (.collection name) v).store b (pc + 1) l := by
  obtain ⟨hlow, hhigh⟩ := collection_place hop (.inr rfl)
  refine ⟨?_, ?_, ?_, h.unpublished, ?_, by omega, by omega⟩
  · rw [createdBefore_of_none hop rfl]
    exact h.created
  · rw [h.staging]
    omega
  · rw [h.final]
    omega
  · intro i m count hi hv
    by_cases hlast : i = pc
    · subst hlast
      rw [hop] at hv
      cases hv
    · rw [put_store, if_neg, h.validated i m count (by omega) hv]
      intro heq
      cases heq
      exact upsert_ne_validate hop (by omega) hv rfl

lemma Progress.writeGraph (h : Progress s.store b 14 l) {manifest : Option Json} :
    Progress (s.put (.staging b.buildId) (some (.files (some b.graph.toJson) manifest))).store b 15 l := by
  have hop : b.plan[14]? = some .writeGraph := rfl
  have hdirectory : b.directory 15 = .staging b.buildId := if_neg (by omega)
  refine ⟨?_, ?_, ?_, h.unpublished, ?_, ?_, by omega⟩
  · rw [createdBefore_of_none hop rfl]
    exact h.created
  · rw [h.staging]
    omega
  · rw [h.final]
    omega
  · intro i name n hi hv
    have hne : i ≠ 14 := by
      rintro rfl
      cases hv
    rw [put_store, if_neg (by simp)]
    exact h.validated i name n (by omega) hv
  · intro _
    exact ⟨manifest, by rw [put_store, hdirectory, if_pos rfl]⟩

lemma Progress.writeManifest (h : Progress s.store b 15 l) {graph manifest : Option Json}
    (hfiles : s.store (.staging b.buildId) = some (.files graph manifest)) :
    Progress (s.put (.staging b.buildId) (some (.files graph (some b.manifest)))).store b 16 l := by
  have hop : b.plan[15]? = some .writeManifest := rfl
  have hdirectory : b.directory 15 = .staging b.buildId := if_neg (by omega)
  have hdirectory' : b.directory 16 = .staging b.buildId := if_neg (by omega)
  refine ⟨?_, ?_, ?_, h.unpublished, ?_, ?_, ?_⟩
  · rw [createdBefore_of_none hop rfl]
    exact h.created
  · rw [h.staging]
    omega
  · rw [h.final]
    omega
  · intro i name n hi hv
    have hne : i ≠ 15 := by
      rintro rfl
      cases hv
    rw [put_store, if_neg (by simp)]
    exact h.validated i name n (by omega) hv
  · intro _
    obtain ⟨m, hgraph⟩ := h.graph (by omega)
    rw [hdirectory, hfiles] at hgraph
    cases hgraph
    exact ⟨some b.manifest, by rw [put_store, hdirectory', if_pos rfl]⟩
  · intro _
    exact ⟨graph, by rw [put_store, hdirectory', if_pos rfl]⟩

lemma Progress.publishDirectory (h : Progress s.store b 16 l) {graph manifest : Option Json}
    (hfiles : s.store (.staging b.buildId) = some (.files graph manifest)) :
    Progress ((s.put (.staging b.buildId) none).put (.final b.buildId)
        (some (.files graph manifest))).store b 17
      { l with stagingDirCreated := false, finalDirCreated := true } := by
  have hop : b.plan[16]? = some .publishDirectory := rfl
  have hdirectory : b.directory 16 = .staging b.buildId := if_neg (by omega)
  have hdirectory' : b.directory 17 = .final b.buildId := if_pos (by omega)
  refine ⟨?_, by simp, by simp, h.unpublished, ?_, ?_, ?_⟩
  · rw [createdBefore_of_none hop rfl]
    exact h.created
  · intro i name n hi hv
    have hne : i ≠ 16 := by
      rintro rfl
      cases hv
    rw [put_store, if_neg (by simp), put_store, if_neg (by simp)]
    exact h.validated i name n (by omega) hv
  · intro _
    obtain ⟨m, hgraph⟩ := h.graph (by omega)
    rw [hdirectory, hfiles] at hgraph
    cases hgraph
    exact ⟨manifest, by rw [put_store, hdirectory', if_pos rfl]⟩
  · intro _
    obtain ⟨g, hmanifest⟩ := h.manifest (by omega)
    rw [hdirectory, hfiles] at hmanifest
    cases hmanifest
    exact ⟨graph, by rw [put_store, hdirectory', if_pos rfl]⟩

/-- The build that replaces the pointer hands its asset over. -/
lemma Sound.replacePointer (h : Sound w) (hk : w.builds k = some (b, .running 18 l)) :
    Sound (w.put k b (.running 19 l)
      { w.storage with current := some b.pointer, history := b :: w.storage.history }) := by
  obtain ⟨hvalid, hprogress⟩ := h.running k b 18 l hk
  have hp := hprogress le_rfl
  have hdirectory : b.directory 18 = .final b.buildId := if_pos (by omega)
  have hcomplete : Complete w.storage.store b := by
    refine ⟨?_, fun c hc => ?_⟩
    · obtain ⟨m, hgraph⟩ := hp.graph (by omega)
      obtain ⟨g, hmanifest⟩ := hp.manifest (by omega)
      rw [hdirectory] at hgraph hmanifest
      rw [hgraph] at hmanifest
      cases hmanifest
      exact hgraph
    · obtain ⟨i, hi, hv⟩ := @validate_of_collection b c hc
      exact hp.validated i _ _ (by omega) hv
  have hresources : ∀ r ∈ b.resources, r ∈ l.cleanup b := by
    intro r hr
    rcases List.mem_cons.mp hr with rfl | hr
    · exact hdirectory ▸ hp.directory_mem (by omega)
    · obtain ⟨c, hc, rfl⟩ := List.mem_map.mp hr
      obtain ⟨i, hi, hv⟩ := @validate_of_collection b c hc
      obtain ⟨j, hj, hcreate⟩ := create_of_validate hv
      rw [mem_cleanup, hp.created]
      exact .inl ⟨_, mem_createdBefore hcreate (by omega), rfl⟩
  have hhands : HandsOver w.owns (w.put k b (.running 19 l)
      { w.storage with current := some b.pointer, history := b :: w.storage.history }).owns
      (some k) none := by
    refine ⟨?_, ?_, ?_⟩
    · intro r hr
      exact absurd ((owns_put_self r).mp hr) List.not_mem_nil
    · rintro r ⟨c, hc, hr⟩
      rcases List.mem_cons.mp hc with rfl | hc
      · right
        rw [owns_some hk, Phase.owned, if_pos le_rfl]
        exact hresources r hr
      · exact .inl ⟨c, hc, hr⟩
    · intro j hj hnone r hr
      cases j with
      | none => exact absurd rfl hnone
      | some j => exact (owns_put_of_ne (fun hjk => hj (congrArg some hjk)) r).mp hr
  refine ⟨hhands.exclusive h.exclusive, ?_, ?_, ?_, rfl⟩
  · intro j c pc l' hj
    rw [builds_put] at hj
    split at hj
    · cases hj
      exact ⟨hvalid, fun hpc => by omega⟩
    · exact h.running j c pc l' hj
  · intro j c todo hj
    rw [builds_put] at hj
    split at hj
    · cases hj
    · exact h.cleaning j c todo hj
  · intro c hc
    rcases List.mem_cons.mp hc with rfl | hc
    · exact ⟨hvalid, hcomplete⟩
    · exact h.published c hc

/-- An operation that only reads: it may stand at several places in front of the replacement. -/
lemma Sound.read (h : Sound w) (hk : w.builds k = some (b, .running pc l))
    (hop : b.plan[pc]? = some op) (hcreated : op.created? = none)
    (hfree : op ≠ .makeStaging ∧ op ≠ .writeGraph ∧ op ≠ .writeManifest ∧ op ≠ .publishDirectory ∧
      op ≠ .replacePointer ∧ op ≠ .checkTemporary)
    (hvalidated : ∀ name count, op = .validate name count →
      w.storage.store (.collection name) = some (.documents count)) :
    Sound (w.put k b (.running (pc + 1) l) w.storage) := by
  obtain ⟨hvalid, hprogress⟩ := h.running k b pc l hk
  obtain ⟨hstaging, hgraph, hmanifest, hpublish, hreplace, hcheck⟩ := place_of_plan hop
  have hlt := lt_of_plan hop
  obtain ⟨h1, h14, h15, h16, h18, h19⟩ := hfree
  have hne1 : pc ≠ 1 := fun heq => h1 (hstaging.mpr heq)
  have hne14 : pc ≠ 14 := fun heq => h14 (hgraph.mpr heq)
  have hne15 : pc ≠ 15 := fun heq => h15 (hmanifest.mpr heq)
  have hne16 : pc ≠ 16 := fun heq => h16 (hpublish.mpr heq)
  have hne18 : pc ≠ 18 := fun heq => h18 (hreplace.mpr heq)
  have hne19 : pc ≠ 19 := fun heq => h19 (hcheck.mpr heq)
  exact h.idle hk (by omega)
    ((hprogress (by omega)).advance hop hcreated ⟨hne1, hne14, hne15, hne16⟩ hvalidated)

lemma Sound.makeStaging (h : Sound w) (hk : w.builds k = some (b, .running 1 l))
    (hnew : w.storage.store (.staging b.buildId) = none) {v : Content} :
    Sound (w.put k b (.running 2 { l with stagingDirCreated := true })
      (w.storage.put (.staging b.buildId) (some v))) := by
  refine h.write hk (by omega) (.inr hnew) ?_
    ((h.running k b 1 l hk).2 (by omega)).makeStaging
  intro r hr
  rcases mem_cleanup.mp hr with ⟨name, hname, rfl⟩ | ⟨-, rfl⟩ | hfinal
  · exact .inl (mem_cleanup.mpr (.inl ⟨name, hname, rfl⟩))
  · exact .inr rfl
  · exact .inl (mem_cleanup.mpr (.inr (.inr hfinal)))

lemma Sound.create {name : String} (h : Sound w) (hk : w.builds k = some (b, .running pc l))
    (hop : b.plan[pc]? = some (.create name)) (hnew : w.storage.store (.collection name) = none)
    {v : Content} :
    Sound (w.put k b
      (.running (pc + 1) { l with createdCollections := l.createdCollections ++ [name] })
      (w.storage.put (.collection name) (some v))) := by
  obtain ⟨hlow, hhigh⟩ := collection_place hop (.inl rfl)
  refine h.write hk (by omega) (.inr hnew) ?_
    (((h.running k b pc l hk).2 (by omega)).create hop hnew)
  intro r hr
  rcases mem_cleanup.mp hr with ⟨m, hm, rfl⟩ | hrest
  · rcases List.mem_append.mp hm with hm | hm
    · exact .inl (mem_cleanup.mpr (.inl ⟨m, hm, rfl⟩))
    · rw [List.mem_singleton.mp hm]
      exact .inr rfl
  · exact .inl (mem_cleanup.mpr (.inr hrest))

lemma Sound.upsert {name : String} (h : Sound w) (hk : w.builds k = some (b, .running pc l))
    (hop : b.plan[pc]? = some (.upsert name)) {v : Content} :
    Sound (w.put k b (.running (pc + 1) l) (w.storage.put (.collection name) (some v))) := by
  obtain ⟨hlow, hhigh⟩ := collection_place hop (.inr rfl)
  have hp := (h.running k b pc l hk).2 (by omega)
  obtain ⟨j, hj, hcreate⟩ := create_of_upsert hop
  refine h.write hk (by omega) (.inl ?_) (fun r hr => .inl hr) (hp.upsert hop)
  rw [mem_cleanup, hp.created]
  exact .inl ⟨name, mem_createdBefore hcreate hj, rfl⟩

/-- The directory of the build moves to its final place. -/
lemma Sound.publishDirectory (h : Sound w) (hk : w.builds k = some (b, .running 16 l))
    {graph manifest : Option Json}
    (hfiles : w.storage.store (.staging b.buildId) = some (.files graph manifest))
    (hnew : w.storage.store (.final b.buildId) = none) :
    Sound (w.put k b (.running 17 { l with stagingDirCreated := false, finalDirCreated := true })
      ((w.storage.put (.staging b.buildId) none).put (.final b.buildId)
        (some (.files graph manifest)))) := by
  have hp := (h.running k b 16 l hk).2 (by omega)
  refine h.running_step hk (by omega) rfl rfl ?_ ?_ ?_ (hp.publishDirectory hfiles)
  · intro r hne
    rw [put_store, put_store] at hne
    by_cases hfinal : r = .final b.buildId
    · exact .inr (hfinal ▸ hnew)
    · rw [if_neg hfinal] at hne
      by_cases hstaging : r = .staging b.buildId
      · exact .inl (hstaging ▸ hp.directory_mem (by omega))
      · rw [if_neg hstaging] at hne
        exact absurd rfl hne
  · intro r hr
    rcases mem_cleanup.mp hr with ⟨m, hm, rfl⟩ | ⟨hstaging, -⟩ | ⟨-, -, rfl⟩
    · exact .inl (mem_cleanup.mpr (.inl ⟨m, hm, rfl⟩))
    · cases hstaging
    · exact .inr hnew
  · intro r hr
    rw [put_store, put_store]
    rcases mem_cleanup.mp hr with ⟨m, hm, rfl⟩ | ⟨hstaging, -⟩ | ⟨-, -, rfl⟩
    · rw [if_neg (by simp), if_neg (by simp)]
      exact h.present hk (by omega) (mem_cleanup.mpr (.inl ⟨m, hm, rfl⟩))
    · cases hstaging
    · rw [if_pos rfl]
      simp

/-- Behind the replacement nothing is in progress any more. -/
lemma Sound.checkTemporary (h : Sound w) (hk : w.builds k = some (b, .running 19 l)) :
    Sound (w.put k b (.running 20 { l with pointerPublished := true }) w.storage) := by
  refine h.rest rfl (fun _ heq => by cases heq) fun pc' l'' heq => ?_
  cases heq
  exact ⟨(h.running k b 19 l hk).1, fun hpc => by omega⟩

/-- An operation that succeeds. -/
lemma Sound.perform (h : Sound w) (hk : w.builds k = some (b, .running pc l))
    (hop : b.plan[pc]? = some op) (hperform : op.perform b n w.storage l = some (s, l')) :
    Sound (w.put k b (.running (pc + 1) l') s) := by
  have hprogress := (h.running k b pc l hk).2
  obtain ⟨hstaging, hgraph, hmanifest, hpublish, hreplace, hcheck⟩ := place_of_plan hop
  cases op with
  | checkDirectories =>
    simp only [Op.perform] at hperform
    split at hperform
    · cases hperform
      exact h.read hk hop rfl (by simp) (fun _ _ heq => by cases heq)
    · cases hperform
  | makeStaging =>
    obtain rfl := hstaging.mp rfl
    simp only [Op.perform] at hperform
    split at hperform
    · rename_i hnew
      cases hperform
      exact h.makeStaging hk (Option.isNone_iff_eq_none.mp hnew)
    · cases hperform
  | embed collection =>
    cases hperform
    exact h.read hk hop rfl (by simp) (fun _ _ heq => by cases heq)
  | create name =>
    simp only [Op.perform] at hperform
    split at hperform
    · rename_i hnew
      cases hperform
      exact h.create hk hop (Option.isNone_iff_eq_none.mp hnew)
    · cases hperform
  | upsert name =>
    simp only [Op.perform] at hperform
    split at hperform
    · cases hperform
      exact h.upsert hk hop
    · cases hperform
  | validate name count =>
    simp only [Op.perform] at hperform
    split at hperform
    · rename_i m hm
      split at hperform
      · rename_i hcount
        cases hperform
        refine h.read hk hop rfl (by simp) fun name' count' heq => ?_
        cases heq
        rw [hm, hcount]
      · cases hperform
    · cases hperform
  | writeGraph =>
    obtain rfl := hgraph.mp rfl
    have hp := hprogress (by omega)
    simp only [Op.perform] at hperform
    split at hperform
    · cases hperform
      exact h.write hk (by omega) (.inl (hp.directory_mem (by omega))) (fun r hr => .inl hr)
        hp.writeGraph
    · cases hperform
  | writeManifest =>
    obtain rfl := hmanifest.mp rfl
    have hp := hprogress (by omega)
    simp only [Op.perform] at hperform
    split at hperform
    · rename_i hfiles
      cases hperform
      exact h.write hk (by omega) (.inl (hp.directory_mem (by omega))) (fun r hr => .inl hr)
        (hp.writeManifest hfiles)
    · cases hperform
  | publishDirectory =>
    obtain rfl := hpublish.mp rfl
    simp only [Op.perform] at hperform
    split at hperform
    · rename_i graph manifest hfiles hnew
      cases hperform
      exact h.publishDirectory hk hfiles hnew
    · cases hperform
  | writeTemporary =>
    cases hperform
    exact h.read hk hop rfl (by simp) (fun _ _ heq => by cases heq)
  | replacePointer =>
    obtain rfl := hreplace.mp rfl
    cases hperform
    exact h.replacePointer hk
  | checkTemporary =>
    obtain rfl := hcheck.mp rfl
    cases hperform
    exact h.checkTemporary hk

end Perform

section Runs

variable {w w' : World} {e : Nat × Action}

lemma sound_of_isFresh (h : w.IsFresh) : Sound w := by
  obtain ⟨hcurrent, hhistory, hbuilds⟩ := h
  have hnone : ∀ k, w.builds k = none := fun k => by rw [hbuilds]
  have hempty : ∀ j r, ¬w.owns j r := by
    intro j r hr
    cases j with
    | none =>
      obtain ⟨b, hb, -⟩ := hr
      rw [hhistory] at hb
      cases hb
    | some k =>
      obtain ⟨b, p, hk, -⟩ := hr
      rw [hnone] at hk
      cases hk
  refine ⟨⟨fun j r hr => absurd hr (hempty j r), fun j _ r hr => absurd hr (hempty j r)⟩, ?_, ?_, ?_, ?_⟩
  · intro k b pc l hk
    rw [hnone] at hk
    cases hk
  · intro k b todo hk
    rw [hnone] at hk
    cases hk
  · intro b hb
    rw [hhistory] at hb
    cases hb
  · rw [hcurrent, hhistory]
    rfl

/-- Every step keeps the published assets complete. -/
lemma Sound.next (h : Sound w) (hok : w.ChecksTemporary e) (hstep : w.next e = some w') : Sound w' := by
  obtain ⟨k, action⟩ := e
  cases action with
  | begin b =>
    simp only [World.next] at hstep
    split at hstep
    · rename_i hnew
      cases hstep
      refine h.rest rfl (fun _ heq => by cases heq) fun pc l heq => ?_
      cases heq
      exact ⟨hnew.2, fun _ => progress_begin⟩
    · cases hstep
  | perform n =>
    simp only [World.next] at hstep
    split at hstep
    · rename_i b pc l hk
      obtain ⟨op, hop, hstep⟩ := Option.bind_eq_some_iff.mp hstep
      obtain ⟨⟨s, l'⟩, hperform, hstep⟩ := Option.bind_eq_some_iff.mp hstep
      cases hstep
      exact h.perform hk hop hperform
    · cases hstep
  | raise effect =>
    simp only [World.next] at hstep
    split at hstep
    · rename_i b pc l hk
      obtain ⟨op, hop, hstep⟩ := Option.bind_eq_some_iff.mp hstep
      cases hstep
      refine h.raise hk hop ?_
      rintro rfl
      exact hok effect rfl b pc l hk hop
    · cases hstep
  | clean removed raised =>
    simp only [World.next] at hstep
    split at hstep
    · rename_i b todo hk
      cases hstep
      exact h.clean hk
    · cases hstep
  | crash =>
    simp only [World.next] at hstep
    split at hstep
    · cases hstep
      exact h.rest rfl (fun _ heq => by cases heq) (fun _ _ heq => by cases heq)
    · cases hstep

lemma history_perform {b : Build} {n : Nat} {s s' : Storage} {l l' : Locals} {op : Op}
    (h : op.perform b n s l = some (s', l')) : s.history ⊆ s'.history := by
  cases op <;> simp only [Op.perform] at h <;> (try split at h) <;> (try split at h) <;> cases h <;>
    first
    | exact fun _ hc => hc
    | exact List.subset_cons_self _ _

lemma history_raised {b : Build} {effect : Option Nat} {s : Storage} {op : Op} :
    (op.raised b effect s).history = s.history := by
  cases op <;> simp only [Op.raised] <;> (try split) <;> rfl

lemma history_cleanStep {s : Storage} {removed raised : Bool} {todo : List Resource} :
    (cleanStep s removed raised todo).1.history = s.history := by
  cases todo with
  | nil => rfl
  | cons r todo =>
    cases r with
    | collection name =>
      simp only [cleanStep]
      split <;> rfl
    | staging id => rfl
    | final id => rfl

/-- No publication is forgotten. -/
lemma history_next (hstep : w.next e = some w') : w.storage.history ⊆ w'.storage.history := by
  obtain ⟨k, action⟩ := e
  cases action with
  | begin b =>
    simp only [World.next] at hstep
    split at hstep
    · cases hstep
      exact fun _ hc => hc
    · cases hstep
  | perform n =>
    simp only [World.next] at hstep
    split at hstep
    · obtain ⟨op, -, hstep⟩ := Option.bind_eq_some_iff.mp hstep
      obtain ⟨⟨s, l'⟩, hperform, hstep⟩ := Option.bind_eq_some_iff.mp hstep
      cases hstep
      exact history_perform hperform
    · cases hstep
  | raise effect =>
    simp only [World.next] at hstep
    split at hstep
    · obtain ⟨op, -, hstep⟩ := Option.bind_eq_some_iff.mp hstep
      cases hstep
      rw [World.put, history_raised]
      exact fun _ hc => hc
    · cases hstep
  | clean removed raised =>
    simp only [World.next] at hstep
    split at hstep
    · cases hstep
      rw [World.put, history_cleanStep]
      exact fun _ hc => hc
    · cases hstep
  | crash =>
    simp only [World.next] at hstep
    split at hstep
    · cases hstep
      exact fun _ hc => hc
    · cases hstep

/-- Builds whose check for the temporary file does not raise after the replacement. -/
def safePublishing : System World (Nat × Action) := publishing.restrict World.ChecksTemporary

lemma sound_of_reachable (h : safePublishing.Reachable w) : Sound w :=
  h.invariant (fun _ => sound_of_isFresh) fun _ _ _ hs hstep => hs.next hstep.1 hstep.2

lemma history_run {es : List (Nat × Action)} (h : safePublishing.Run w es w') :
    w.storage.history ⊆ w'.storage.history := by
  induction h with
  | nil => exact fun _ hc => hc
  | snoc _ hstep ih => exact List.Subset.trans ih (history_next hstep.2)

end Runs

section Loading

variable {b : Build}

lemma splitFrom_slash {part cs rest : List Char} (h : '/' ∉ cs) :
    splitFrom ['/'] 0 part (cs ++ '/' :: rest) = (part.reverse ++ cs) :: splitFrom ['/'] 0 [] rest := by
  induction cs generalizing part with
  | nil => simp [splitFrom]
  | cons c cs ih =>
    rw [List.mem_cons, not_or] at h
    rw [List.cons_append, splitFrom, if_neg (by simpa using h.1), ih h.2]
    simp

/-- The path of the manifest of a build. -/
lemma safeRelativePath_manifest (h : isSafe b.buildId = true) :
    safeRelativePath (.str s!"{b.buildId}/manifest.json") = some [b.buildId, "manifest.json"] := by
  simp only [isSafe, Bool.and_eq_true, decide_eq_true_eq, List.all_eq_true] at h
  obtain ⟨hne, hchars⟩ := h
  have hnot : ∀ c, c.isAlphanum = false → c ≠ '_' → c ≠ '-' → c ∉ b.buildId.toList := by
    intro c hc h₁ h₂ hin
    have hsafe := hchars c hin
    simp [hc, h₁, h₂] at hsafe
  have hslash : '/' ∉ b.buildId.toList := hnot '/' (by decide) (by decide) (by decide)
  have hdot : '.' ∉ b.buildId.toList := hnot '.' (by decide) (by decide) (by decide)
  have hlist : (s!"{b.buildId}/manifest.json").toList =
      b.buildId.toList ++ '/' :: "manifest.json".toList := by
    change (b.buildId ++ "/manifest.json").toList = _
    rw [String.toList_append]
    rfl
  have hparts : split s!"{b.buildId}/manifest.json" "/" = [b.buildId, "manifest.json"] := by
    have hsep : ("/" : String).toList = ['/'] := rfl
    have htail : splitFrom ['/'] 0 [] "manifest.json".toList = ["manifest.json".toList] := by decide
    rw [split, hlist, hsep, splitFrom_slash hslash, htail]
    simp
  have hblank : strip s!"{b.buildId}/manifest.json" ≠ "" := by
    apply @strip_ne_empty _ '/' _ (by decide)
    rw [hlist]
    exact List.mem_append_right _ List.mem_cons_self
  have hhead : (s!"{b.buildId}/manifest.json").toList.head? ≠ some '/' := by
    rw [hlist]
    obtain ⟨c, cs, hcs⟩ := List.exists_cons_of_ne_nil hne
    rw [hcs] at hslash ⊢
    simp only [List.cons_append, List.head?_cons, ne_eq, Option.some.injEq]
    rintro rfl
    exact hslash List.mem_cons_self
  have hid : b.buildId ≠ "" ∧ b.buildId ≠ "." ∧ b.buildId ≠ ".." := by
    refine ⟨?_, ?_, ?_⟩
    · intro heq
      rw [heq] at hne
      exact hne rfl
    · intro heq
      rw [heq] at hdot
      exact hdot (by decide)
    · intro heq
      rw [heq] at hdot
      exact hdot (by decide)
  have hfilter : [b.buildId, "manifest.json"].filter (fun part => part ≠ "" ∧ part ≠ ".") =
      [b.buildId, "manifest.json"] := by
    simp [hid.1, hid.2.1]
  unfold safeRelativePath
  simp only [hparts, hfilter]
  rw [if_neg]
  simp only [hblank, hhead, List.mem_cons, List.not_mem_nil, or_false, false_or, not_or]
  exact ⟨Ne.symm hid.2.2, by decide⟩

lemma collectionName_manifest {c : String} (hc : c ∈ collections) :
    collectionName (b.manifest.field "collections") c = .ok (c, b.physicalName c) := by
  simp only [collections, List.mem_cons, List.not_mem_nil, or_false] at hc
  rcases hc with rfl | rfl | rfl <;> rfl

/-- A complete asset is loaded from its three files. -/
lemma loadPublishedAsset_complete {s₁ s₂ s₃ : Storage} (hvalid : b.Valid)
    (hcurrent : s₁.current = some b.pointer) (h₂ : Complete s₂.store b) (h₃ : Complete s₃.store b) :
    loadPublishedAsset s₁ s₂ s₃ =
      .ok ⟨b.buildId, collections.map fun c => (c, b.physicalName c), b.graph.toJson, b.manifest⟩ := by
  have hpath := safeRelativePath_manifest hvalid.1
  have hne : b.buildId ≠ "" := by
    intro heq
    have hsafe := hvalid.1
    rw [heq] at hsafe
    cases hsafe
  have hpointer : s₁.readJsonObject ["current.json"] = .ok b.pointer := by
    simp only [Storage.readJsonObject, Storage.file, hcurrent]
    rfl
  have hmanifest : s₂.readJsonObject [b.buildId, "manifest.json"] = .ok b.manifest := by
    simp only [Storage.readJsonObject, Storage.file, h₂.files, if_true]
    rfl
  have hgraph : s₃.readJsonObject [b.buildId, "relationship_graph.json"] = .ok b.graph.toJson := by
    simp only [Storage.readJsonObject, Storage.file, h₃.files]
    rfl
  have hid : b.pointer.field "build_id" = .str b.buildId := rfl
  have hmanifestPath : b.pointer.field "manifest_path" = .str s!"{b.buildId}/manifest.json" := rfl
  have hready : isThe b.buildId (b.manifest.field "build_id") = true ∧
      isThe "READY" (b.manifest.field "status") = true := by
    have hbuildId : b.manifest.field "build_id" = .str b.buildId := rfl
    rw [hbuildId]
    exact ⟨decide_eq_true rfl, rfl⟩
  have hrelative : safeRelativePath (b.manifest.field "relationship_graph") =
      some ["relationship_graph.json"] := by
    have hname : b.manifest.field "relationship_graph" = .str "relationship_graph.json" := rfl
    rw [hname]
    decide
  have hnames : collections.mapM (collectionName (b.manifest.field "collections")) =
      .ok (collections.map fun c => (c, b.physicalName c)) := by
    apply mapM_of_forall₂
    rw [List.forall₂_map_right_iff, List.forall₂_same]
    exact fun c hc => collectionName_manifest hc
  rw [loadPublishedAsset, except_bind_ok]
  refine ⟨_, hpointer, ?_⟩
  rw [hid]
  simp only
  rw [checked_bind_ok, require_ok, hmanifestPath, hpath]
  refine ⟨hne, ?_⟩
  simp only [except_bind_ok, exists_checked, require_ok]
  refine ⟨_, hmanifest, hready, rfl, _, hnames, ?_⟩
  rw [hrelative]
  simp only [except_bind_ok, exists_checked, require_ok, except_pure_ok]
  exact ⟨_, hgraph, rfl, rfl⟩

/-- From the first publication on, in whatever order builds take their steps, fail and die, a reader
that reads the pointer, the manifest and the graph one after another gets the whole asset of one
build, and the collections it names keep their documents. -/
theorem loadPublishedAsset_of_run {w₁ w₂ w₃ w₄ : World} {es fs gs : List (Nat × Action)}
    (hreachable : safePublishing.Reachable w₁) (hcurrent : w₁.storage.current ≠ none)
    (hmanifest : safePublishing.Run w₁ es w₂) (hgraph : safePublishing.Run w₂ fs w₃)
    (hlater : safePublishing.Run w₃ gs w₄) :
    ∃ b ∈ w₁.storage.history, w₁.storage.current = some b.pointer ∧
      loadPublishedAsset w₁.storage w₂.storage w₃.storage =
        .ok ⟨b.buildId, collections.map fun c => (c, b.physicalName c), b.graph.toJson, b.manifest⟩ ∧
      ∀ c ∈ collections, w₄.storage.store (.collection (b.physicalName c)) =
        some (.documents (b.documentCount c)) := by
  have hsound₁ := sound_of_reachable hreachable
  have hsound₂ := sound_of_reachable (hreachable.run hmanifest)
  have hsound₃ := sound_of_reachable ((hreachable.run hmanifest).run hgraph)
  have hsound₄ := sound_of_reachable (((hreachable.run hmanifest).run hgraph).run hlater)
  rw [hsound₁.current] at hcurrent ⊢
  obtain ⟨b, rest, hhistory⟩ : ∃ b rest, w₁.storage.history = b :: rest := by
    cases hhistory : w₁.storage.history with
    | nil =>
      rw [hhistory] at hcurrent
      exact absurd rfl hcurrent
    | cons b rest => exact ⟨b, rest, rfl⟩
  have hb₁ : b ∈ w₁.storage.history := hhistory ▸ List.mem_cons_self
  have hb₂ := history_run hmanifest hb₁
  have hb₃ := history_run hgraph hb₂
  have hb₄ := history_run hlater hb₃
  have hpointer : w₁.storage.current = some b.pointer := by
    rw [hsound₁.current, hhistory]
    rfl
  refine ⟨b, hb₁, ?_, ?_, (hsound₄.published b hb₄).2.documents⟩
  · rw [hhistory]
    rfl
  · exact loadPublishedAsset_complete (hsound₁.published b hb₁).1 hpointer
      (hsound₂.published b hb₂).2 (hsound₃.published b hb₃).2

/-- A build with one document in each collection. -/
def plainBuild (buildId : String) : Build where
  buildId := buildId
  collectionPrefix := "chatbi"
  documentCount _ := 1
  graph := ⟨[], [], [], [], []⟩
  embedding := .obj []
  provenance := .obj []
  publishedAt := "2026-01-01T00:00:00Z"

def freshWorld : World := ⟨⟨fun _ => none, none, []⟩, fun _ => none⟩

/-- No operation raises. -/
def noRaise (_ : World) : Nat × Action → Bool
  | (_, .raise _) => false
  | _ => true

lemma run_of_exec {w w' : World} {es : List (Nat × Action)}
    (h : System.exec World.next noRaise w es = some w') : safePublishing.Run w es w' := by
  have hstep : ∀ w e w', noRaise w e = true → World.next w e = some w' →
      safePublishing.step w e w' := by
    intro w e w' hok hnext
    refine ⟨fun effect heffect => ?_, hnext⟩
    obtain ⟨k, action⟩ := e
    subst heffect
    cases hok
  exact System.exec_run hstep h

/-- A first build is published. -/
def firstPublication : List (Nat × Action) :=
  (0, .begin (plainBuild "b1")) :: List.replicate 20 (0, .perform 1)

/-- A second build dies after it has created a collection. -/
def secondCrash : List (Nat × Action) :=
  [(1, .begin (plainBuild "b2")), (1, .perform 1), (1, .perform 1), (1, .perform 1),
    (1, .perform 1), (1, .crash)]

theorem loadPublishedAsset_of_run_plain :
    ∃ w w', System.exec World.next noRaise freshWorld firstPublication = some w ∧
      System.exec World.next noRaise w secondCrash = some w' ∧
      ∃ asset, loadPublishedAsset w.storage w'.storage w'.storage = .ok asset := by
  obtain ⟨w, hw⟩ : ∃ w, System.exec World.next noRaise freshWorld firstPublication = some w := by
    have hsome : (System.exec World.next noRaise freshWorld firstPublication).isSome = true := by
      decide +kernel
    exact Option.isSome_iff_exists.mp hsome
  obtain ⟨w', hw'⟩ : ∃ w', System.exec World.next noRaise w secondCrash = some w' := by
    have hboth : ((System.exec World.next noRaise freshWorld firstPublication).bind
        fun w => System.exec World.next noRaise w secondCrash).isSome = true := by decide +kernel
    rw [hw] at hboth
    exact Option.isSome_iff_exists.mp hboth
  have hcurrent : w.storage.current ≠ none := by
    have hsome : ((System.exec World.next noRaise freshWorld firstPublication).bind
        fun w => w.storage.current).isSome = true := by decide +kernel
    rw [hw] at hsome
    intro hnone
    rw [Option.bind_some, hnone] at hsome
    cases hsome
  have hfresh : freshWorld.IsFresh := ⟨rfl, rfl, rfl⟩
  have hreachable : safePublishing.Reachable w := ⟨freshWorld, _, hfresh, run_of_exec hw⟩
  obtain ⟨b, -, -, hload, -⟩ := loadPublishedAsset_of_run hreachable hcurrent (run_of_exec hw')
    (.nil w') (.nil w')
  exact ⟨w, w', hw, hw', _, hload⟩

/-- When the check for the temporary file raises after the replacement, the cleaning up removes the
asset that the pointer names. -/
theorem checkTemporary_loses_asset :
    ((System.exec World.next (fun _ _ => true) freshWorld
      ((0, .begin (plainBuild "b1")) :: List.replicate 19 (0, .perform 1) ++
        [(0, .raise none), (0, .clean true false), (0, .clean true false), (0, .clean true false),
          (0, .clean true false)])).map fun w =>
      (w.storage.current.isSome, (loadPublishedAsset w.storage w.storage w.storage).isOk)) =
      some (true, false) := by decide +kernel

end Loading

end ChatBI.Offline
