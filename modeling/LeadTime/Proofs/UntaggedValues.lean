import LeadTime.Proofs.Document.Decoding
import LeadTime.Request.Decode
import Mathlib

/-! Bound values are written without a tag and decoded as the first kind that fits. What is written of one kind fits no
earlier one, but for the empty list, which fits both kinds of list. -/
namespace LeadTime

open Decoder

namespace ParamValue

section Decode

variable {ν : Type} [Node ν] [LawfulNode ν]

theorem yields_bool (b : Bool) : Yields (ν := ν) decode (encode (.bool b)) (some (.bool b)) := fun node hnode => by
  have hbool : Decoder.bool node = some b := Decoder.yields_bool _ _ hnode
  simp [decode, hbool]

theorem yields_int (n : Int64) : Yields (ν := ν) decode (encode (.int n)) (some (.int n)) := fun node hnode => by
  have hbool : Decoder.bool node = none := Decoder.yields_bool _ _ hnode
  have hint : int64 node = some n := yields_int64 n _ hnode
  simp [decode, hbool, hint]

theorem yields_intList (ns : List Int64) : Yields (ν := ν) decode (encode (.intList ns)) (some (.intList ns)) :=
  fun node hnode => by
  have hbool : Decoder.bool node = none := Decoder.yields_bool _ _ hnode
  have hint : int64 node = none := yields_int64_none rfl _ hnode
  have hints : list int64 node = some ns := yields_list yields_int64 ns _ hnode
  simp [decode, hbool, hint, hints]

theorem yields_text (s : String) : Yields (ν := ν) decode (encode (.text s)) (some (.text s)) := fun node hnode => by
  have hbool : Decoder.bool node = none := Decoder.yields_bool _ _ hnode
  have hint : int64 node = none := yields_int64_none rfl _ hnode
  have hints : list int64 node = none := yields_list_of_list?_eq_none rfl _ hnode
  have htext : Decoder.text node = some s := Decoder.yields_text _ _ hnode
  simp [decode, hbool, hint, hints, htext]

theorem yields_textList (s : String) (ss : List String) :
    Yields (ν := ν) decode (encode (.textList (s :: ss))) (some (.textList (s :: ss))) := fun node hnode => by
  have hbool : Decoder.bool node = none := Decoder.yields_bool _ _ hnode
  have hint : int64 node = none := yields_int64_none rfl _ hnode
  have hints : list int64 node = none := yields_list_of_head (yields_int64_none rfl) _ _ hnode
  have htext : Decoder.text node = none := Decoder.yields_text _ _ hnode
  have htexts : texts node = some (s :: ss) := yields_texts (s :: ss) _ hnode
  simp [decode, hbool, hint, hints, htext, htexts]

theorem yields_decode (v : ParamValue) :
    Yields (ν := ν) decode v.encode (some (if v = .textList [] then .intList [] else v)) := by
  cases v with
  | bool b => exact yields_bool b
  | int n => exact yields_int n
  | intList ns => exact yields_intList ns
  | text s => exact yields_text s
  | textList ss =>
    cases ss with
    | nil => exact yields_intList []
    | cons s ss => simpa using yields_textList s ss

end Decode

theorem encode_eq_iff {v w : ParamValue} :
    v.encode = w.encode ↔ v = w ∨ (v = .intList [] ∧ w = .textList []) ∨ (v = .textList [] ∧ w = .intList []) := by
  refine ⟨fun h => ?_, ?_⟩
  · have hread := yields_decode v v.encode rfl
    rw [h, yields_decode w w.encode rfl, Option.some.injEq] at hread
    by_cases hv : v = .textList []
    · by_cases hw : w = .textList []
      · exact .inl (hv.trans hw.symm)
      · rw [if_neg hw, if_pos hv] at hread
        exact .inr (.inr ⟨hv, hread⟩)
    · by_cases hw : w = .textList []
      · rw [if_pos hw, if_neg hv] at hread
        exact .inr (.inl ⟨hread.symm, hw⟩)
      · rw [if_neg hw, if_neg hv] at hread
        exact .inl hread.symm
  · rintro (rfl | ⟨rfl, rfl⟩ | ⟨rfl, rfl⟩) <;> rfl

/-- A value is decoded as itself, from the data or from a JSON text that holds them, but for the empty list of texts,
which is decoded as the empty list of integers; these two are the only values that are written alike. -/
theorem decode_untagged :
    (∀ v : ParamValue, let read := if v = .textList [] then .intList [] else v
      decode v.encode = some read ∧ decode (Json.ofDatum v.encode) = some read) ∧
    ∀ v w : ParamValue, v.encode = w.encode ↔
      v = w ∨ (v = .intList [] ∧ w = .textList []) ∨ (v = .textList [] ∧ w = .intList []) :=
  ⟨fun v => ⟨yields_decode v _ rfl, yields_decode v _ (Json.holds_ofDatum v.encode)⟩, fun _ _ => encode_eq_iff⟩

end ParamValue
end LeadTime
