import LeadTime.Proofs.Document.Decoding
import LeadTime.Proofs.InstantText
import LeadTime.Request.Decode
import Mathlib

/-! A request is decoded again from what it is written as. Every record yields itself, from whichever node holds what
is written for it: its fields are found by their names, and each of them yields itself. -/
namespace LeadTime

open Decoder

variable {ν : Type} [Node ν] [LawfulNode ν]

theorem TimeUnit.mem_all (unit : TimeUnit) : unit ∈ all := by cases unit <;> decide

theorem DurationLimit.yields_decode (d : DurationLimit) : Yields (ν := ν) decode d.encode (some d) := by
  refine yields_record [] (by decide) rfl ?_
  rintro _ (_ | ⟨⟨hvalue⟩, _ | ⟨⟨hunit⟩, ⟨⟩⟩⟩)
  simp [required, orElse, yields_uint64 d.value _ hvalue, yields_word (by decide) d.unit.mem_all _ hunit]

theorem Event.yields_decode (e : Event) : Yields (ν := ν) decode e.encode (some e) := by
  refine yields_record [] (by decide) rfl ?_
  rintro _ (_ | ⟨⟨hkind⟩, _ | ⟨⟨hvalues⟩, _ | ⟨⟨hparams⟩, _ | ⟨⟨hlabel⟩, ⟨⟩⟩⟩⟩⟩)
  simp [required, orElse, yields_text _ _ hkind, yields_texts _ _ hvalues, yields_keyMap yields_texts _ _ hparams,
    yields_bool _ _ hlabel, Datum.text?, Datum.bool?]

namespace RawFilter

/-- The keys of a filter ascend, so that sorting them again changes nothing. -/
theorem ofEntries_entries (f : RawFilter) : ofEntries f.entries = f := by
  obtain ⟨entries, hkeys, hentries⟩ := f
  simp only [ofEntries, Datum.sortEntries_eq_self entries hkeys hentries]

theorem yields_decode (f : RawFilter) : Yields (ν := ν) decode (.map f.entries) (some f) := fun node hnode => by
  obtain ⟨entries, hmap, hentries⟩ := exists_entries hnode
  have hdata : entries.mapM (fun pair => (Node.datum? pair.2).map (pair.1, ·)) = some f.entries :=
    mapM_eq_some (hentries.imp fun pair entry hpair => by
      rw [hpair.1, show Node.datum? pair.2 = some entry.2 from hpair.2]
      rfl)
  simp [decode, hmap, hdata, ofEntries_entries]

end RawFilter

theorem Stage.yields_decode (s : Stage) : Yields (ν := ν) decode s.encode (some s) := by
  obtain ⟨name, description, order, lower, upper, event, filter⟩ := s
  -- Only a filter that is there is written.
  cases filter with
  | none =>
    refine yields_record ["filter"] (by decide) rfl ?_
    rintro _ (_ | ⟨⟨hname⟩, _ | ⟨⟨hdescription⟩, _ | ⟨⟨horder⟩, _ | ⟨⟨hlower⟩, _ | ⟨⟨hupper⟩, _ | ⟨⟨hevent⟩,
      _ | ⟨⟨⟩, ⟨⟩⟩⟩⟩⟩⟩⟩⟩)
    simp [required, orElse, Decoder.optional, yields_text _ _ hname, yields_text _ _ hdescription,
      yields_int32 order _ horder, lower.yields_decode _ hlower, upper.yields_decode _ hupper,
      event.yields_decode _ hevent, Datum.text?]
  | some filter =>
    refine yields_record [] (by decide) rfl ?_
    rintro _ (_ | ⟨⟨hname⟩, _ | ⟨⟨hdescription⟩, _ | ⟨⟨horder⟩, _ | ⟨⟨hlower⟩, _ | ⟨⟨hupper⟩, _ | ⟨⟨hevent⟩,
      _ | ⟨⟨hfilter⟩, ⟨⟩⟩⟩⟩⟩⟩⟩⟩)
    have hnullable := yields_nullable RawFilter.yields_decode (fun _ => rfl) (some filter) _ hfilter
    simp [required, orElse, Decoder.optional, yields_text _ _ hname, yields_text _ _ hdescription,
      yields_int32 order _ horder, lower.yields_decode _ hlower, upper.yields_decode _ hupper,
      event.yields_decode _ hevent, hnullable, Datum.text?]

theorem PipelineConfig.yields_decode (p : PipelineConfig) : Yields (ν := ν) decode p.encode (some p) := by
  refine yields_record [] (by decide) rfl ?_
  rintro _ (_ | ⟨⟨hname⟩, _ | ⟨⟨hdescription⟩, _ | ⟨⟨hpre⟩, _ | ⟨⟨hfixed⟩, _ | ⟨⟨hpost⟩, _ | ⟨⟨hcommit⟩,
    _ | ⟨⟨hgeneric⟩, _ | ⟨⟨htypes⟩, ⟨⟩⟩⟩⟩⟩⟩⟩⟩⟩)
  simp [required, orElse, yields_text _ _ hname, yields_text _ _ hdescription,
    yields_list Stage.yields_decode _ _ hpre, yields_list Stage.yields_decode _ _ hfixed,
    yields_list Stage.yields_decode _ _ hpost, yields_bool _ _ hcommit, yields_bool _ _ hgeneric,
    yields_texts _ _ htypes, Datum.text?, Datum.bool?]

theorem Thresholds.yields_decode (t : Thresholds) : Yields (ν := ν) decode t.encode (some t) := by
  refine yields_record [] (by decide) rfl ?_
  rintro _ (_ | ⟨⟨hgood⟩, _ | ⟨⟨hattention⟩, ⟨⟩⟩⟩)
  simp [required, yields_int64 t.good _ hgood, yields_int64 t.needsAttention _ hattention]

theorem Across.mem_all (across : Across) : across ∈ all := by cases across <;> decide

theorem Calculation.mem_all (calculation : Calculation) : calculation ∈ all := by cases calculation <;> decide

theorem IssueSystem.mem_all (system : IssueSystem) : system ∈ all := by cases system <;> decide

theorem StackKind.mem_all (kind : StackKind) : kind ∈ all := by cases kind <;> decide

theorem SortOrder.mem_all (order : SortOrder) : order ∈ all := by cases order <;> decide

theorem RatingBucket.mem_all (bucket : RatingBucket) : bucket ∈ all := by cases bucket <;> decide

theorem Query.yields_decode (q : Query) : Yields (ν := ν) decode q.encode (some q) := by
  refine yields_record [] (by decide) rfl ?_
  rintro _ (_ | ⟨⟨hacross⟩, _ | ⟨⟨hcalculation⟩, _ | ⟨⟨hsystem⟩, _ | ⟨⟨hstack⟩, _ | ⟨⟨hstackValues⟩, _ | ⟨⟨htrendKeys⟩,
    _ | ⟨⟨hpage⟩, _ | ⟨⟨hpageSize⟩, _ | ⟨⟨hsort⟩, _ | ⟨⟨htarget⟩, _ | ⟨⟨hbuckets⟩, _ | ⟨⟨honlyApplicable⟩,
    _ | ⟨⟨hratings⟩, _ | ⟨⟨hthresholds⟩, ⟨⟩⟩⟩⟩⟩⟩⟩⟩⟩⟩⟩⟩⟩⟩⟩)
  have hstack := yields_nullable (fun k => yields_word (by decide) (StackKind.mem_all k)) (fun _ => rfl) _ _ hstack
  have hpageSize := yields_nullable yields_uint64 (fun _ => rfl) _ _ hpageSize
  have hsort := yields_keyMap (fun o => yields_word (by decide) (SortOrder.mem_all o)) _ _ hsort
  have htarget := yields_nullable (fun s => yields_text (.text s)) (fun _ => rfl) _ _ htarget
  have hratings := yields_list (fun r => yields_word (by decide) (RatingBucket.mem_all r)) _ _ hratings
  have hthresholds := yields_nullable Thresholds.yields_decode (fun _ => rfl) _ _ hthresholds
  simp [orElse, Decoder.optional, yields_word (by decide) q.across.mem_all _ hacross,
    yields_word (by decide) q.calculation.mem_all _ hcalculation,
    yields_word (by decide) q.issueSystem.mem_all _ hsystem, hstack, yields_texts _ _ hstackValues,
    yields_list yields_int64 _ _ htrendKeys, yields_uint64 q.page _ hpage, hpageSize, hsort, htarget,
    yields_uint32 q.buckets _ hbuckets, yields_bool _ _ honlyApplicable, hratings, hthresholds, Datum.bool?]

theorem OrgUnit.yields_decode (o : OrgUnit) : Yields (ν := ν) decode o.encode (some o) := by
  refine yields_record [] (by decide) rfl ?_
  rintro _ (_ | ⟨⟨hrefId⟩, _ | ⟨⟨huserIds⟩, ⟨⟩⟩⟩)
  have hrefId := yields_nullable yields_int64 (fun _ => rfl) _ _ hrefId
  simp [orElse, Decoder.optional, hrefId, yields_texts _ _ huserIds]

theorem IssueFilter.yields_decode (f : IssueFilter) : Yields (ν := ν) decode f.encode (some f) := by
  refine yields_record [] (by decide) rfl ?_
  rintro _ (_ | ⟨⟨hids⟩, _ | ⟨⟨hstates⟩, _ | ⟨⟨hactive⟩, _ | ⟨⟨hunit⟩, _ | ⟨⟨hcriteria⟩, ⟨⟩⟩⟩⟩⟩⟩)
  have hactive := yields_nullable (fun b => yields_bool (.bool b)) (fun _ => rfl) _ _ hactive
  simp [orElse, Decoder.optional, yields_texts _ _ hids, yields_texts _ _ hstates, hactive, yields_bool _ _ hunit,
    yields_keyMap yields_texts _ _ hcriteria, Datum.bool?]

theorem CodeFilter.yields_decode (f : CodeFilter) : Yields (ν := ν) decode f.encode (some f) := by
  refine yields_record [] (by decide) rfl ?_
  rintro _ (_ | ⟨⟨hids⟩, _ | ⟨⟨hunit⟩, _ | ⟨⟨hcriteria⟩, ⟨⟩⟩⟩⟩)
  simp [orElse, yields_texts _ _ hids, yields_bool _ _ hunit, yields_keyMap yields_texts _ _ hcriteria, Datum.bool?]

theorem Instant.yields_decode (i : Instant) : Yields (ν := ν) decode i.encode (some i) := fun node hnode => by
  have htext : Decoder.text node = some i.text := yields_text _ _ hnode
  simp [decode, htext, ofText?_text]

theorem TimeRange.yields_decode (r : TimeRange) : Yields (ν := ν) decode r.encode (some r) := by
  refine yields_record [] (by decide) rfl ?_
  rintro _ (_ | ⟨⟨hstart⟩, _ | ⟨⟨hstop⟩, ⟨⟩⟩⟩)
  have hstart := yields_nullable Instant.yields_decode (fun _ => rfl) _ _ hstart
  have hstop := yields_nullable Instant.yields_decode (fun _ => rfl) _ _ hstop
  simp [orElse, Decoder.optional, hstart, hstop]

theorem JobRunFilter.yields_decode (f : JobRunFilter) : Yields (ν := ν) decode f.encode (some f) := by
  refine yields_record [] (by decide) rfl ?_
  rintro _ (_ | ⟨⟨hendTime⟩, _ | ⟨⟨hunit⟩, _ | ⟨⟨hcriteria⟩, ⟨⟩⟩⟩⟩)
  have hendTime := yields_nullable TimeRange.yields_decode (fun _ => rfl) _ _ hendTime
  simp [orElse, Decoder.optional, hendTime, yields_bool _ _ hunit, yields_keyMap yields_texts _ _ hcriteria,
    Datum.bool?]

theorem EntityFilters.yields_decode (f : EntityFilters) : Yields (ν := ν) decode f.encode (some f) := by
  refine yields_record [] (by decide) rfl ?_
  rintro _ (_ | ⟨⟨hissues⟩, _ | ⟨⟨hpulls⟩, _ | ⟨⟨hcommits⟩, _ | ⟨⟨hruns⟩, _ | ⟨⟨hunit⟩, ⟨⟩⟩⟩⟩⟩⟩)
  have hissues := yields_nullable IssueFilter.yields_decode (fun _ => rfl) _ _ hissues
  have hpulls := yields_nullable CodeFilter.yields_decode (fun _ => rfl) _ _ hpulls
  have hcommits := yields_nullable CodeFilter.yields_decode (fun _ => rfl) _ _ hcommits
  have hruns := yields_nullable JobRunFilter.yields_decode (fun _ => rfl) _ _ hruns
  simp [orElse, Decoder.optional, hissues, hpulls, hcommits, hruns, f.orgUnit.yields_decode _ hunit]

theorem Request.yields_decode (r : Request) : Yields (ν := ν) decode r.encode (some r) := by
  refine yields_record [] (by decide) rfl ?_
  rintro _ (_ | ⟨⟨hpipeline⟩, _ | ⟨⟨hquery⟩, _ | ⟨⟨hfilters⟩, ⟨⟩⟩⟩⟩)
  simp [required, orElse, r.pipeline.yields_decode _ hpipeline, r.query.yields_decode _ hquery,
    r.filters.yields_decode _ hfilters]

/-- Nothing of a request is lost when it is written, whether it is decoded from the data or from a JSON text that holds
them. -/
theorem Request.decode_encode (r : Request) :
    Request.decode r.encode = some r ∧ Request.decode (Json.ofDatum r.encode) = some r :=
  ⟨r.yields_decode _ rfl, r.yields_decode _ (Json.holds_ofDatum r.encode)⟩

end LeadTime
