/-
# The parts of the Location-Query option

`coap_serialize_array_option` writes the Location-Query string as one option for each part
between '&'; it does not look at the byte after a '&', and writes no part when there is none.  The
parser joins the parts again (`coap_merge_multi_option`).  The scan is a recursion over the
string (`splitParts_eq_scanParts`), which loses at most the last '&' (`scanParts_join`), and the
string is read back unless that happens or it starts with '&' (`foldl_merge_eq_iff`).
-/

import Lwm2m.Coap.Serialize

namespace Lwm2m.Coap

/-- The parts of the string `rest` behind the part that is being read. -/
def scanParts (splitter : Byte) (part : List Byte) : List Byte → List (List Byte)
  | [] => [part]
  | [b] => if b = splitter then [part] else [part ++ [b]]
  | b :: c :: rest =>
    if b = splitter then part :: scanParts splitter [c] rest
    else scanParts splitter (part ++ [b]) (c :: rest)

/-- The number of splitters at the end of a string. -/
def trailingSplitters (splitter : Byte) (array : List Byte) : ℕ :=
  (array.reverse.takeWhile (· = splitter)).length

/-- A part is written for the last splitter, and none behind it. -/
def lostSplitters (splitter : Byte) (array : List Byte) : ℕ :=
  trailingSplitters splitter array % 2

variable {splitter : Byte}

theorem scanParts_cons (part : List Byte) {b : Byte} (hb : b ≠ splitter) (rest : List Byte) :
    scanParts splitter part (b :: rest) = scanParts splitter (part ++ [b]) rest := by
  cases rest with
  | nil => rw [scanParts, scanParts, if_neg hb]
  | cons c rest => rw [scanParts, if_neg hb]

/-- The loop over the positions of the string. -/
theorem splitParts_eq_scanParts_of_le (array : List Byte) (start j : ℕ) (hstart : start ≤ j)
    (hj : j ≤ array.length) :
    splitParts array splitter start j =
      scanParts splitter ((array.drop start).take (j - start)) (array.drop j) := by
  rw [splitParts, dif_pos hj]
  rcases hj.eq_or_lt with hend | hlt
  · have hnone : splitParts array splitter (j + 1) (j + 2) = [] := by
      rw [splitParts, dif_neg (by omega)]
    have hdrop : array.drop j = [] := List.drop_eq_nil_of_le hend.ge
    rw [if_pos (.inr hend), hnone, hdrop, scanParts]
  have hdrop : array.drop j = array[j] :: array.drop (j + 1) := List.drop_eq_getElem_cons hlt
  have hget : array[j]? = some array[j] := List.getElem?_eq_getElem hlt
  by_cases hb : array[j] = splitter
  · rw [if_pos (.inl (hget.trans (congrArg some hb))), hdrop]
    by_cases hlast : j + 1 = array.length
    · have hnone : splitParts array splitter (j + 1) (j + 2) = [] := by
        rw [splitParts, dif_neg (by omega)]
      have hnil : array.drop (j + 1) = [] := List.drop_eq_nil_of_le hlast.ge
      rw [hnone, hnil, scanParts, if_pos hb]
    · have hnext : array.drop (j + 1) = array[j + 1] :: array.drop (j + 2) :=
        List.drop_eq_getElem_cons (by omega)
      have hone : (array.drop (j + 1)).take (j + 2 - (j + 1)) = [array[j + 1]] := by
        rw [hnext, show j + 2 - (j + 1) = 1 by omega]
        rfl
      rw [splitParts_eq_scanParts_of_le array (j + 1) (j + 2) (by omega) (by omega), hone, hnext,
        scanParts, if_pos hb]
  · have hnot : ¬ (array[j]? = some splitter ∨ j = array.length) := by
      rw [hget, Option.some.injEq]
      exact not_or.mpr ⟨hb, hlt.ne⟩
    have htake : (array.drop start).take (j + 1 - start) =
        (array.drop start).take (j - start) ++ [array[j]] := by
      rw [show j + 1 - start = j - start + 1 by omega, List.take_add_one, List.getElem?_drop,
        show start + (j - start) = j by omega, hget]
      rfl
    rw [if_neg hnot, splitParts_eq_scanParts_of_le array start (j + 1) (by omega) hlt, htake,
      hdrop, scanParts_cons _ hb]
termination_by array.length - j

/-- **The scan** of `coap_serialize_array_option`. -/
theorem splitParts_eq_scanParts (array : List Byte) :
    splitParts array splitter 0 0 = scanParts splitter [] array :=
  splitParts_eq_scanParts_of_le array 0 0 le_rfl (Nat.zero_le _)

/-! ### What the scan loses -/

theorem trailingSplitters_cons (b : Byte) (array : List Byte) :
    trailingSplitters splitter (b :: array) =
      if trailingSplitters splitter array = array.length ∧ b = splitter then array.length + 1
      else trailingSplitters splitter array := by
  unfold trailingSplitters
  rw [List.reverse_cons, List.takeWhile_append, List.length_reverse]
  by_cases hall : (array.reverse.takeWhile (· = splitter)).length = array.length
  · rw [if_pos hall, List.length_append, List.length_reverse]
    by_cases hb : b = splitter
    · rw [if_pos ⟨hall, hb⟩, hb]
      simp
    · rw [if_neg fun h => hb h.2, hall]
      simp [hb]
  · rw [if_neg hall, if_neg fun h => hall h.1]

theorem trailingSplitters_le (array : List Byte) :
    trailingSplitters splitter array ≤ array.length := by
  have h := (List.takeWhile_sublist (· = splitter) (l := array.reverse)).length_le
  rwa [List.length_reverse] at h

/-- A byte that is not a splitter is not at the end. -/
theorem lostSplitters_cons {b : Byte} (hb : b ≠ splitter) (array : List Byte) :
    lostSplitters splitter (b :: array) = lostSplitters splitter array := by
  rw [lostSplitters, trailingSplitters_cons, if_neg fun h => hb h.2, lostSplitters]

/-- A splitter and the byte behind it are both passed. -/
theorem lostSplitters_cons_cons (c : Byte) (array : List Byte) :
    lostSplitters splitter (splitter :: c :: array) = lostSplitters splitter array := by
  have hle := @trailingSplitters_le splitter array
  unfold lostSplitters
  rw [trailingSplitters_cons]
  by_cases hall : trailingSplitters splitter array = array.length ∧ c = splitter
  · have hboth : trailingSplitters splitter (c :: array) = array.length + 1 := by
      rw [trailingSplitters_cons, if_pos hall]
    rw [hboth, if_pos ⟨rfl, rfl⟩, List.length_cons]
    omega
  · have hsame : trailingSplitters splitter (c :: array) = trailingSplitters splitter array := by
      rw [trailingSplitters_cons, if_neg hall]
    rw [hsame, List.length_cons, if_neg (by omega)]

@[simp] theorem lostSplitters_nil : lostSplitters splitter [] = 0 := rfl

@[simp] theorem lostSplitters_singleton : lostSplitters splitter [splitter] = 1 := by
  rw [lostSplitters, trailingSplitters_cons, if_pos ⟨rfl, rfl⟩]
  rfl

/-- **What the scan gives**: the parts with a splitter between them are the string, but for the
last splitter when it is lost; the first part starts with the one being read, and no other part
is empty. -/
theorem scanParts_join (part rest : List Byte) : ∃ more tail,
    scanParts splitter part rest = (part ++ more) :: tail ∧ (∀ p ∈ tail, p ≠ []) ∧
      part ++ more ++ tail.flatMap (splitter :: ·) ++
        List.replicate (lostSplitters splitter rest) splitter = part ++ rest ∧
      (rest.head? = some splitter → more = []) := by
  have hnone (p : List Byte) (h : p ∈ []) : p ≠ [] := absurd h List.not_mem_nil
  induction part, rest using scanParts.induct splitter with
  | case1 part =>
    refine ⟨[], [], ?_, hnone, ?_, fun _ => rfl⟩
    · rw [scanParts, List.append_nil]
    · simp
  | case2 part =>
    refine ⟨[], [], ?_, hnone, ?_, fun _ => rfl⟩
    · rw [scanParts, if_pos rfl, List.append_nil]
    · simp
  | case3 part b hb =>
    have hlost : lostSplitters splitter [b] = 0 := lostSplitters_cons hb []
    refine ⟨[b], [], ?_, hnone, ?_, fun h => absurd (Option.some.inj h) hb⟩
    · rw [scanParts, if_neg hb]
    · simp [hlost]
  | case4 part c rest ih =>
    obtain ⟨more, tail, hscan, hne, hjoin, -⟩ := ih
    refine ⟨[], ([c] ++ more) :: tail, ?_, ?_, ?_, fun _ => rfl⟩
    · rw [scanParts, if_pos rfl, hscan, List.append_nil]
    · exact List.forall_mem_cons.mpr ⟨List.cons_ne_nil _ _, hne⟩
    · rw [lostSplitters_cons_cons, List.append_nil, List.flatMap_cons, List.append_assoc,
        List.cons_append, List.cons_append, hjoin]
      rfl
  | case5 part b c rest hb ih =>
    obtain ⟨more, tail, hscan, hne, hjoin, -⟩ := ih
    refine ⟨b :: more, tail, ?_, hne, ?_, fun h => absurd (Option.some.inj h) hb⟩
    · rw [scanParts_cons _ hb, hscan, List.append_assoc]
      rfl
    · rw [lostSplitters_cons hb]
      simpa using hjoin

/-- One part is written at least. -/
theorem splitParts_ne_nil (array : List Byte) : splitParts array splitter 0 0 ≠ [] := by
  obtain ⟨more, tail, hscan, -⟩ := @scanParts_join splitter [] array
  rw [splitParts_eq_scanParts, hscan]
  exact List.cons_ne_nil _ _

/-- The bytes of the parts, with one more for each part, are those of the string. -/
theorem scanParts_length (array : List Byte) :
    ((scanParts splitter [] array).map (·.length + 1)).sum + lostSplitters splitter array =
      array.length + 1 := by
  obtain ⟨more, tail, hscan, -, hjoin, -⟩ := @scanParts_join splitter [] array
  have hlength := congrArg List.length hjoin
  simp only [List.length_append, List.length_flatMap, List.length_replicate, List.length_cons,
    List.length_nil, Nat.zero_add] at hlength
  rw [hscan, List.map_cons, List.sum_cons, List.nil_append]
  omega

/-! ### What is read back -/

/-- Parts that are not empty are joined behind a string that is not. -/
theorem foldl_merge_of_ne_nil {head : List Byte} (hhead : head ≠ []) (tail : List (List Byte)) :
    tail.foldl (coapMergeMultiOption · · splitter) head =
      head ++ tail.flatMap (splitter :: ·) := by
  induction tail generalizing head with
  | nil => rw [List.foldl_nil, List.flatMap_nil, List.append_nil]
  | cons p tail ih =>
    have hmerge : coapMergeMultiOption head p splitter = head ++ splitter :: p := by
      rw [coapMergeMultiOption, if_pos (List.length_pos_iff.mpr hhead)]
    rw [List.foldl_cons, hmerge, ih (List.append_ne_nil_of_left_ne_nil hhead _), List.flatMap_cons,
      List.append_assoc]

/-- **When the string is read back**: it does not start with a splitter, and the number of
splitters at its end is even. -/
theorem foldl_merge_eq_iff (array : List Byte) :
    (splitParts array splitter 0 0).foldl (coapMergeMultiOption · · splitter) [] = array ↔
      array.head? ≠ some splitter ∧ lostSplitters splitter array = 0 := by
  obtain ⟨more, tail, hscan, hne, hjoin, hfirst⟩ := @scanParts_join splitter [] array
  have hstart : coapMergeMultiOption [] more splitter = more := rfl
  rw [splitParts_eq_scanParts, hscan, List.nil_append, List.foldl_cons, hstart]
  rw [List.nil_append, List.nil_append] at hjoin
  by_cases hhead : array.head? = some splitter
  · -- the empty first part is dropped, and with it the splitter behind it
    refine iff_of_false (fun heq => ?_) fun h => h.1 hhead
    rw [hfirst hhead] at hjoin heq
    cases tail with
    | nil =>
      rw [List.foldl_nil] at heq
      rw [← heq] at hhead
      cases hhead
    | cons p tail =>
      have hp : coapMergeMultiOption [] p splitter = p := rfl
      rw [List.foldl_cons, hp, foldl_merge_of_ne_nil (hne p List.mem_cons_self)] at heq
      have hlength := congrArg List.length hjoin
      rw [← heq, List.flatMap_cons] at hlength
      simp only [List.nil_append, List.cons_append, List.length_cons, List.length_append] at hlength
      omega
  rw [and_iff_right hhead]
  by_cases hmore : more = []
  · -- then the string is empty
    have htail : tail = [] := by
      cases tail with
      | nil => rfl
      | cons p tail =>
        rw [← hjoin, hmore] at hhead
        exact absurd rfl hhead
    have hlost : lostSplitters splitter array = 0 := by
      rcases Nat.eq_zero_or_pos (lostSplitters splitter array) with h | h
      · exact h
      · obtain ⟨n, hn⟩ := Nat.exists_eq_succ_of_ne_zero h.ne'
        rw [← hjoin, hmore, htail, hn] at hhead
        exact absurd rfl hhead
    rw [hlost, hmore, htail] at hjoin
    rw [hmore, htail]
    exact iff_of_true hjoin hlost
  · rw [foldl_merge_of_ne_nil hmore]
    constructor
    · intro heq
      have hlength := congrArg List.length hjoin
      rw [heq, List.length_append, List.length_replicate] at hlength
      omega
    · intro hlost
      rwa [hlost, List.replicate_zero, List.append_nil] at hjoin

end Lwm2m.Coap
