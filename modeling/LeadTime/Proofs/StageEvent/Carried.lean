import LeadTime.Proofs.Bindings
import LeadTime.Proofs.StageEvent.Clause
import LeadTime.Proofs.StageName
import Mathlib

/-! What an event and its filter carry, each value with the name that stands for it. A stage binds these values and no
others (`StageEvent.bindings_clause`), and gives no name to two of them (`StageEvent.within_carried`). -/
namespace LeadTime

namespace StageName

def bindings (stage : Nat) (carried : List (StageName × ParamValue)) : List (String × ParamValue) :=
  carried.map fun pair => (pair.1.text stage, pair.2)

@[simp] theorem bindings_append (stage : Nat) (a b : List (StageName × ParamValue)) :
    bindings stage (a ++ b) = bindings stage a ++ bindings stage b := List.map_append

def listed (n : StageName) (values : List String) : List (StageName × ParamValue) :=
  if values.isEmpty then [] else [(n, .textList values)]

end StageName

open StageName (listed bindings)

def BranchFilter.carried (f : BranchFilter) : List (StageName × ParamValue) :=
  let values := (if f.source.isEmpty then [] else [.textList f.source]) ++
    (if f.target.isEmpty then [] else [.textList f.target]) ++ f.sourcePattern.toList.map ParamValue.text ++
      f.targetPattern.toList.map .text
  values.zipIdx.map fun (value, i) => (.indexed i, value)

def RunMatch.carried (r : RunMatch) (first : Nat) : List (StageName × ParamValue) :=
  listed .value r.jobIds ++ r.params.zipIdx.flatMap fun (pair, i) =>
    [(.name (first + i), .text pair.1), (.indexed (first + i), .textList pair.2)]

namespace RunFilter

def carriedField (field : Nat) (values : List String) : List (StageName × ParamValue) :=
  values.zipIdx.map fun (value, i) => (.metadata field i, .text (singleton value))

/-- The branches that are asked for, of which there are at most two, each for both of its uses. -/
def carriedBranches (branches : List String) : List (StageName × ParamValue) :=
  (branches.take 2).zipIdx.flatMap fun (branch, i) =>
    [(.metadata branchField i, .text branch), (.metadataOther branchField i, .text branch)]

def carriedAddress (p : Option TextPattern) : List (StageName × ParamValue) :=
  ((p.bind (·.begins)).toList.map fun s => (.addressBegins, .text (beginsPattern s))) ++
    (p.bind (·.contains)).toList.map fun s => (.addressContains, .text (containsPattern s))

def carriedMark : Option PlatformFlag → List (StageName × ParamValue)
  | none => []
  | some .ci => [(.ciMark, .bool true)]
  | some .cd => [(.cdMark, .bool true)]

def carried (f : RunFilter) (mark : Option PlatformFlag) : List (StageName × ParamValue) :=
  listed .users f.userIds ++ listed .excludedUsers f.excludedUserIds ++ listed .statuses f.statuses ++
    listed .excludedStatuses f.excludedStatuses ++ carriedField 0 f.services ++ carriedField 1 f.environments ++
    carriedField 2 f.deploymentTypes ++ carriedBranches f.branches ++ carriedAddress f.repository ++ carriedMark mark

end RunFilter

/-- What the event carries, its filter included. -/
def StageEvent.carried : StageEvent → List (StageName × ParamValue)
  | .statusReached statuses => [(.value, .textList statuses)]
  | .commitCreated | .prReviewStarted | .prApproved _ => []
  | .prCreated branches | .prMerged branches => branches.carried
  | .prLabelAdded labels => labels.toList.map fun ls => (.value, .textList ls)
  | .jobRun runs filter => runs.carried 0 ++ filter.carried none
  | .ciJobRun runs filter => runs.carried 0 ++ filter.carried (some .ci)
  | .cdJobRun runs filter => runs.carried 0 ++ filter.carried (some .cd)
  | .thirdPartyCiJobRun runs => runs.carried 0
  | .deployJobRun runs marker buildJobIds =>
    runs.carried 1 ++ [(.name 0, .text marker)] ++ listed (.indexed 0) buildJobIds
  | .genericEvent types => listed .value types

section Bindings

theorem Terms.bindings_all (ts : List Terms) : (Terms.all ts).bindings = ts.flatMap (·.bindings) := by
  induction ts with
  | nil => rfl
  | cons t rest ih => rw [Terms.all, Terms.bindings_append, ih, List.flatMap_cons]

theorem Terms.bindings_anyOf (ts : List Terms) : (Terms.anyOf ts).bindings = ts.flatMap (·.bindings) := by
  cases ts with
  | nil => rfl
  | cons t rest => exact Terms.bindings_all (t :: rest)

theorem BranchFilter.bindings_terms (f : BranchFilter) (stage : Nat) :
    (f.terms stage).bindings = bindings stage f.carried := by
  unfold terms carried
  extract_lets source target isIn isLike restrictions numbered values
  have hisIn (column : Sql.Expr) (vs : List String) :
      (isIn column vs).map Prod.snd = if vs.isEmpty then [] else [.textList vs] := by
    simp only [isIn]
    split <;> rfl
  have hisLike (column : Sql.Expr) (pattern : Option String) :
      (isLike column pattern).map Prod.snd = pattern.toList.map .text := by
    cases pattern <;> rfl
  have hvalues : values = restrictions.map Prod.snd := by
    simp only [values, restrictions, List.map_append, hisIn, hisLike]
  rw [hvalues, List.zipIdx_map, bindings]
  simp only [numbered, List.map_map]
  rfl

theorem RunMatch.bindings_terms (r : RunMatch) (stage first : Nat) :
    (r.terms stage first).bindings = bindings stage (r.carried first) := by
  have hjobs : (if r.jobIds.isEmpty then Terms.none
      else ⟨[.among (.column "jr" "cicd_job_id") (Placeholder.value stage)],
        [(Placeholder.value stage, .textList r.jobIds)]⟩).bindings = bindings stage (listed .value r.jobIds) := by
    cases h : r.jobIds <;> simp [listed, bindings, StageName.text]
  rw [RunMatch.terms, Terms.bindings_append, hjobs, Terms.bindings_anyOf, carried, StageName.bindings_append,
    List.flatMap_map, bindings, bindings, List.map_flatMap]
  rfl

namespace RunFilter

variable (stage : Nat)

theorem bindings_inList (column : String) (n : StageName) (values : List String) :
    (inList column (n.text stage) values).bindings = bindings stage (listed n values) := by
  unfold inList listed
  split <;> rfl

theorem bindings_notInList (column : String) (n : StageName) (values : List String) :
    (notInList column (n.text stage) values).bindings = bindings stage (listed n values) := by
  unfold notInList listed
  split <;> rfl

theorem bindings_containment (index : Nat) (field : String) (values : List String) :
    (containment stage index field values).bindings = bindings stage (carriedField index values) := by
  rw [containment, Terms.bindings_anyOf, List.flatMap_map, carriedField, bindings, List.map_map, List.map_eq_flatMap]
  rfl

theorem bindings_branchTerms (branches : List String) :
    (branchTerms stage branches).bindings = bindings stage (carriedBranches branches) := by
  rw [branchTerms, Terms.bindings_anyOf, List.flatMap_map, carriedBranches, bindings, List.map_flatMap]
  rfl

theorem bindings_repositoryTerms (p : Option TextPattern) :
    (repositoryTerms stage p).bindings = bindings stage (carriedAddress p) := by
  cases p with
  | none => rfl
  | some p =>
    obtain ⟨begins, contains⟩ := p
    cases begins <;> cases contains <;> rfl

theorem bindings_flagTerms (mark : Option PlatformFlag) :
    (flagTerms stage mark).bindings = bindings stage (carriedMark mark) := by
  cases mark with
  | none => rfl
  | some mark => cases mark <;> rfl

theorem bindings_terms (f : RunFilter) (mark : Option PlatformFlag) :
    (f.terms stage mark).bindings = bindings stage (f.carried mark) := by
  have husers := bindings_inList stage "cicd_user_id" .users f.userIds
  have hexcluded := bindings_notInList stage "cicd_user_id" .excludedUsers f.excludedUserIds
  have hstatuses := bindings_inList stage "status" .statuses f.statuses
  have hexcludedStatuses := bindings_notInList stage "status" .excludedStatuses f.excludedStatuses
  simp only [StageName.text] at husers hexcluded hstatuses hexcludedStatuses
  simp only [terms, Terms.bindings_all, List.flatMap_cons, List.flatMap_nil, List.append_nil, carried,
    StageName.bindings_append, husers, hexcluded, hstatuses, hexcludedStatuses, bindings_containment,
    bindings_branchTerms, bindings_repositoryTerms, bindings_flagTerms, List.append_assoc]

end RunFilter

namespace StageEvent

variable {ctx : EventContext} {name : String} {stage : Nat} {event : StageEvent} {clause : StageClause}

/-- A stage binds what its event carries, and nothing else. -/
theorem bindings_clause (h : event.clause ctx name stage = .ok clause) :
    clause.demand.bindings = bindings stage event.carried := by
  cases event with
  | cdJobRun runs filter =>
    obtain ⟨ci, -, rfl⟩ := clause_cdJobRun_eq_ok.1 h
    show ((runs.terms stage 0 ++ filter.terms stage (some .cd)) ++ Clause.runPredicates ctx stage).bindings = _
    rw [Clause.bindings_append_runPredicates, Terms.bindings_append, RunMatch.bindings_terms,
      RunFilter.bindings_terms, carried, StageName.bindings_append]
  | prCreated branches | prMerged branches =>
    cases h
    exact branches.bindings_terms stage
  | jobRun runs filter | ciJobRun runs filter =>
    cases h
    show ((runs.terms stage 0 ++ filter.terms stage _) ++ Clause.runPredicates ctx stage).bindings = _
    rw [Clause.bindings_append_runPredicates, Terms.bindings_append, RunMatch.bindings_terms,
      RunFilter.bindings_terms, carried, StageName.bindings_append]
  | thirdPartyCiJobRun runs =>
    cases h
    show ((runs.terms stage 0 ++ .none) ++ Clause.runPredicates ctx stage).bindings = _
    rw [Clause.bindings_append_runPredicates, Terms.bindings_append, RunMatch.bindings_terms, carried]
    exact List.append_nil _
  | deployJobRun runs marker buildJobIds =>
    cases h
    have hbuild : (if buildJobIds.isEmpty then Terms.none
        else ⟨[.among (.column "jr" "cicd_job_id") (Placeholder.indexedValue stage 0)],
          [(Placeholder.indexedValue stage 0, .textList buildJobIds)]⟩).bindings =
        bindings stage (listed (.indexed 0) buildJobIds) := by
      cases buildJobIds <;> rfl
    show ((runs.terms stage 1 ++ ⟨[.equal (.column "jrp" "name") (.placeholder (Placeholder.name stage 0))],
      [(Placeholder.name stage 0, .text marker)]⟩) ++ Clause.runPredicates ctx stage).bindings ++ _ = _
    rw [Clause.bindings_append_runPredicates, Terms.bindings_append, RunMatch.bindings_terms, hbuild, carried,
      StageName.bindings_append, StageName.bindings_append]
    rfl
  | prLabelAdded labels => cases h; cases labels <;> rfl
  | genericEvent types => cases h; cases types <;> rfl
  | _ => cases h; rfl

end StageEvent

end Bindings

namespace StageName

/-- Names of one rank stand beside each other; a list of ranges holds no name twice. -/
def rank : StageName → Nat
  | .value => 0
  | .indexed _ | .name _ => 1
  | .users => 2
  | .excludedUsers => 3
  | .statuses => 4
  | .excludedStatuses => 5
  | .metadata field _ | .metadataOther field _ => 6 + min field 3
  | .addressBegins => 10
  | .addressContains => 11
  | .ciMark | .cdMark => 12
  | .endTimeStart | .endTimeStop => 13

structure Within (low high : Nat) (names : List StageName) : Prop where
  nodup : names.Nodup
  ranks : ∀ n ∈ names, low ≤ n.rank ∧ n.rank < high

variable {low mid high : Nat} {a b : List StageName}

theorem Within.nil : Within low high [] := ⟨by simp, by simp⟩

theorem Within.single (n : StageName) (hl : low ≤ n.rank) (hh : n.rank < high) : Within low high [n] :=
  ⟨by simp, by simpa using ⟨hl, hh⟩⟩

theorem Within.append (ha : Within low mid a) (hb : Within mid high b) (hl : low ≤ mid) (hh : mid ≤ high) :
    Within low high (a ++ b) where
  nodup := by
    refine List.nodup_append'.2 ⟨ha.nodup, hb.nodup, fun n hna hnb => ?_⟩
    have h₁ := (ha.ranks n hna).2
    have h₂ := (hb.ranks n hnb).1
    omega
  ranks n hn := by
    rcases List.mem_append.1 hn with hn | hn
    · have h := ha.ranks n hn
      omega
    · have h := hb.ranks n hn
      omega

theorem Within.mono {low' high' : Nat} (h : Within low high a) (hl : low' ≤ low) (hh : high ≤ high') :
    Within low' high' a :=
  ⟨h.nodup, fun n hn => by have := h.ranks n hn; omega⟩

theorem nodup_flatMap_zipIdx {α : Type} (items : List α) {f : Nat → List StageName} (hf : ∀ i, (f i).Nodup)
    (hd : ∀ i j, i ≠ j → (f i).Disjoint (f j)) : (items.zipIdx.flatMap fun item => f item.2).Nodup := by
  have hnumbers : items.zipIdx.flatMap (fun item => f item.2) = (List.range' 0 items.length).flatMap f := by
    rw [← List.zipIdx_map_snd 0 items, List.flatMap_map]
  rw [hnumbers, List.nodup_flatMap]
  have hascending : (List.range' 0 items.length).Pairwise (· < ·) := List.pairwise_lt_range'
  exact ⟨fun i _ => hf i, hascending.imp fun h => hd _ _ h.ne⟩

def names (carried : List (StageName × ParamValue)) : List StageName := carried.map Prod.fst

@[simp] theorem names_append (a b : List (StageName × ParamValue)) : names (a ++ b) = names a ++ names b :=
  List.map_append

theorem get?_insertAll_bindings {carried : List (StageName × ParamValue)} (hnodup : (names carried).Nodup)
    {n : StageName} {value : ParamValue} (h : (n, value) ∈ carried) (bound : Bindings) (stage : Nat) :
    (bound.insertAll (bindings stage carried)).get? (n.text stage) = some value := by
  have hnames : (bindings stage carried).map Prod.fst = (names carried).map (text stage) := by simp [bindings, names]
  refine KeyMap.get?_insertAll_of_count (List.mem_map.2 ⟨_, h, rfl⟩) ?_
  rw [hnames, List.count_map_of_injective _ _ (text_injective stage)]
  exact List.count_eq_one_of_mem hnodup (List.mem_map_of_mem h)

theorem eq_of_mem_listed {m n : StageName} {values : List String} (h : m ∈ names (listed n values)) : m = n := by
  unfold listed names at h
  split at h
  · cases h
  · exact List.mem_singleton.1 h

theorem within_listed (n : StageName) (values : List String) (hl : low ≤ n.rank) (hh : n.rank < high) :
    Within low high (names (listed n values)) := by
  unfold listed
  split
  · exact .nil
  · exact .single n hl hh

end StageName

open StageName (names Within within_listed eq_of_mem_listed nodup_flatMap_zipIdx)

theorem BranchFilter.within_carried (f : BranchFilter) : Within 0 2 (names f.carried) := by
  unfold carried
  extract_lets values
  have hnames : names (values.zipIdx.map fun (value, i) => (.indexed i, value)) =
      values.zipIdx.flatMap fun item => [.indexed item.2] := by
    rw [names, List.map_map, List.map_eq_flatMap]
    rfl
  rw [hnames]
  refine ⟨nodup_flatMap_zipIdx values (f := fun i => [.indexed i]) (by simp) ?_, fun n hn => ?_⟩
  · intro i j hij
    simp [hij.symm]
  · obtain ⟨item, -, hn⟩ := List.mem_flatMap.1 hn
    simp [List.mem_singleton.1 hn, StageName.rank]

namespace RunMatch

theorem names_carried (r : RunMatch) (first : Nat) : names (r.carried first) =
    names (listed .value r.jobIds) ++ r.params.zipIdx.flatMap fun item =>
      [.name (first + item.2), .indexed (first + item.2)] := by
  rw [carried, StageName.names_append, names, names, List.map_flatMap]
  rfl

theorem within_carried (r : RunMatch) (first : Nat) : Within 0 2 (names (r.carried first)) := by
  rw [names_carried]
  have hjobs : Within 0 1 (names (listed .value r.jobIds)) := within_listed .value r.jobIds (by decide) (by decide)
  refine hjobs.append ⟨?_, fun n hn => ?_⟩ (by decide) (by decide)
  · refine nodup_flatMap_zipIdx r.params (f := fun i => [.name (first + i), .indexed (first + i)]) (by simp) ?_
    intro i j hij
    simp [hij.symm]
  · obtain ⟨item, -, hn⟩ := List.mem_flatMap.1 hn
    rcases List.mem_pair.1 hn with rfl | rfl <;> simp [StageName.rank]

theorem notMem_carried (r : RunMatch) {first i : Nat} (h : i < first) :
    .name i ∉ names (r.carried first) ∧ .indexed i ∉ names (r.carried first) := by
  have hnumbered {n : StageName} (hn : n ∈ r.params.zipIdx.flatMap fun item =>
      [StageName.name (first + item.2), .indexed (first + item.2)]) : n ≠ .name i ∧ n ≠ .indexed i := by
    obtain ⟨item, -, hn⟩ := List.mem_flatMap.1 hn
    rcases List.mem_pair.1 hn with rfl | rfl <;> simp <;> omega
  rw [names_carried, List.mem_append, List.mem_append, not_or, not_or]
  have hvalue {n : StageName} (hn : n ∈ names (listed .value r.jobIds)) : n = .value := eq_of_mem_listed hn
  exact ⟨⟨fun hn => StageName.noConfusion (hvalue hn), fun hn => (hnumbered hn).1 rfl⟩,
    ⟨fun hn => StageName.noConfusion (hvalue hn), fun hn => (hnumbered hn).2 rfl⟩⟩

end RunMatch

namespace RunFilter

theorem within_carriedField (field : Nat) (values : List String) {rank : Nat} (hr : 6 + min field 3 = rank) :
    Within rank (rank + 1) (names (carriedField field values)) := by
  have hnames : names (carriedField field values) = values.zipIdx.flatMap fun item => [.metadata field item.2] := by
    rw [names, carriedField, List.map_map, List.map_eq_flatMap]
    rfl
  rw [hnames]
  refine ⟨nodup_flatMap_zipIdx values (f := fun i => [.metadata field i]) (by simp) ?_, fun n hn => ?_⟩
  · intro i j hij
    simp [hij.symm]
  · obtain ⟨item, -, hn⟩ := List.mem_flatMap.1 hn
    rw [List.mem_singleton.1 hn, StageName.rank, hr]
    omega

theorem within_carriedBranches (branches : List String) : Within 9 10 (names (carriedBranches branches)) := by
  have hnames : names (carriedBranches branches) = (branches.take 2).zipIdx.flatMap fun item =>
      [.metadata branchField item.2, .metadataOther branchField item.2] := by
    rw [names, carriedBranches, List.map_flatMap]
    rfl
  rw [hnames]
  refine ⟨nodup_flatMap_zipIdx (branches.take 2)
    (f := fun i => [.metadata branchField i, .metadataOther branchField i]) (by simp) ?_, fun n hn => ?_⟩
  · intro i j hij
    simp [hij.symm]
  · obtain ⟨item, -, hn⟩ := List.mem_flatMap.1 hn
    rcases List.mem_pair.1 hn with rfl | rfl <;> simp [StageName.rank, branchField]

theorem within_carriedAddress (p : Option TextPattern) : Within 10 12 (names (carriedAddress p)) := by
  unfold carriedAddress
  cases p.bind (·.begins) <;> cases p.bind (·.contains) <;>
    exact ⟨by simp [names], by simp [names, StageName.rank]⟩

theorem within_carriedMark (mark : Option PlatformFlag) : Within 12 13 (names (carriedMark mark)) := by
  cases mark with
  | none => exact .nil
  | some mark => cases mark <;> exact .single _ (by decide) (by decide)

theorem within_carried (f : RunFilter) (mark : Option PlatformFlag) : Within 2 13 (names (f.carried mark)) := by
  have husers : Within 2 3 (names (listed .users f.userIds)) := within_listed _ _ (by decide) (by decide)
  have hexcluded : Within 3 4 (names (listed .excludedUsers f.excludedUserIds)) :=
    within_listed _ _ (by decide) (by decide)
  have hstatuses : Within 4 5 (names (listed .statuses f.statuses)) := within_listed _ _ (by decide) (by decide)
  have hexcludedStatuses : Within 5 6 (names (listed .excludedStatuses f.excludedStatuses)) :=
    within_listed _ _ (by decide) (by decide)
  have hservices : Within 6 7 _ := within_carriedField 0 f.services rfl
  have henvironments : Within 7 8 _ := within_carriedField 1 f.environments rfl
  have htypes : Within 8 9 _ := within_carriedField 2 f.deploymentTypes rfl
  simp only [carried, StageName.names_append]
  have hlists := ((husers.append hexcluded (by decide) (by decide)).append hstatuses (by decide) (by decide)).append
    hexcludedStatuses (by decide) (by decide)
  have hfields := ((hlists.append hservices (by decide) (by decide)).append henvironments (by decide)
    (by decide)).append htypes (by decide) (by decide)
  exact ((hfields.append (within_carriedBranches _) (by decide) (by decide)).append (within_carriedAddress _) (by decide)
    (by decide)).append (within_carriedMark mark) (by decide) (by decide)

end RunFilter

/-- No event gives a name to two of its values. -/
theorem StageEvent.within_carried (event : StageEvent) : Within 0 13 (names event.carried) := by
  have hruns (runs : RunMatch) (filter : RunFilter) (mark : Option PlatformFlag) :
      Within 0 13 (names (runs.carried 0 ++ filter.carried mark)) := by
    rw [StageName.names_append]
    exact (runs.within_carried 0).append (filter.within_carried mark) (by decide) (by decide)
  cases event with
  | statusReached statuses => exact .single .value (by decide) (by decide)
  | commitCreated | prReviewStarted | prApproved => exact .nil
  | prCreated branches | prMerged branches => exact branches.within_carried.mono (by decide) (by decide)
  | prLabelAdded labels =>
    cases labels with
    | none => exact .nil
    | some labels => exact .single .value (by decide) (by decide)
  | jobRun runs filter => exact hruns runs filter none
  | ciJobRun runs filter => exact hruns runs filter (some .ci)
  | cdJobRun runs filter => exact hruns runs filter (some .cd)
  | thirdPartyCiJobRun runs => exact (runs.within_carried 0).mono (by decide) (by decide)
  | deployJobRun runs marker buildJobIds =>
    -- The deployment's parameters are numbered from one, so that zero is left for its marker and builds.
    have hruns := runs.within_carried 1
    have hfree := runs.notMem_carried Nat.zero_lt_one
    have hmarked : (names (runs.carried 1) ++ [StageName.name 0]).Nodup := by
      rw [← List.concat_eq_append]
      exact hruns.nodup.concat hfree.1
    have hbuilds : Within 0 13 (names (listed (.indexed 0) buildJobIds)) := within_listed _ _ (by decide) (by decide)
    have hshow : names (StageEvent.deployJobRun runs marker buildJobIds).carried =
        (names (runs.carried 1) ++ [StageName.name 0]) ++ names (listed (.indexed 0) buildJobIds) := by
      simp only [carried, StageName.names_append]
      rfl
    rw [hshow]
    refine ⟨List.nodup_append'.2 ⟨hmarked, hbuilds.nodup, fun n hn hb => ?_⟩, fun n hn => ?_⟩
    · cases eq_of_mem_listed hb
      simp [hfree.2] at hn
    · rcases List.mem_append.1 hn with hn | hn
      · rcases List.mem_append.1 hn with hn | hn
        · have h := hruns.ranks n hn
          omega
        · cases List.mem_singleton.1 hn
          decide
      · exact hbuilds.ranks n hn
  | genericEvent types => exact within_listed .value types (by decide) (by decide)

end LeadTime
