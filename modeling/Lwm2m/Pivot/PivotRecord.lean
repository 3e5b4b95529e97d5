/-
# The record of a pivot

A call of `VerifyPivot` is right when it leaves a file `pivot-model` that was there alone, leaves
none behind that it did not complete, and writes a complete one when it performs the pivot.  It is
so exactly when the file is seen, when the call ends before the file is created, or when there was
no file and every operation after that succeeds with at least one model (`callRight_iff`).
-/

import Lwm2m.Pivot.VerifyPivot

namespace Lwm2m.Pivot

/-! ### What is right -/

/-- The file that a call writes. -/
def Attempt.pivotFile (attempt : Attempt) : Path := attempt.getPath pivotModelFile ""

/-- The assertions that the serial vault sends. -/
def Attempt.received (attempt : Attempt) : List Assertion :=
  attempt.pivotModel.decoded ++ attempt.pivotSerial.decoded

/-- The model assertions of a list. -/
def modelsOf (assertions : List Assertion) : List Assertion :=
  assertions.filter fun a => a.typeName = modelTypeName

/-- The lines that have the models of a list copied. -/
def copyLines (assertions : List Assertion) : String :=
  (modelsOf assertions).foldr (fun a rest => copyModelAssert a ++ rest) ""

/-- The content of a complete record: the removal of the old model, and the copy of every model that
is received, at least one. -/
def Attempt.Complete (attempt : Attempt) (content : String) : Prop :=
  modelsOf attempt.received ≠ [] ∧ ∃ oldModel others, attempt.models = .ok (oldModel :: others) ∧
    content = removeModelAssert oldModel ++ copyLines attempt.received

/-- What a call does to the record of the pivot. -/
structure CallRight (attempt : Attempt) (fs : FileSystem) : Prop where
  /-- A record that is there is not changed. -/
  keeps : ∀ file, fs attempt.pivotFile = some file →
    (verifyPivot attempt fs).1 attempt.pivotFile = some file
  /-- An error leaves no record that was not there. -/
  cleans : ∀ err, (verifyPivot attempt fs).2 = some err → fs attempt.pivotFile = none →
    (verifyPivot attempt fs).1 attempt.pivotFile = none
  /-- A call without an error writes a complete record or none. -/
  completes : ∀ file, (verifyPivot attempt fs).2 = none → fs attempt.pivotFile = none →
    (verifyPivot attempt fs).1 attempt.pivotFile = some file → attempt.Complete file.content

/-! ### When it is -/

/-- The call sees a file with the name of the record in its working directory. -/
def Sees (attempt : Attempt) (fs : FileSystem) : Prop :=
  attempt.stat = none ∧ (fs (attempt.workingDirectory, pivotModelFile)).isSome

/-- The call gets as far as creating the record. -/
def Creates (attempt : Attempt) : Prop :=
  attempt.modelInfo = none ∧ (∃ oldModel others, attempt.models = .ok (oldModel :: others)) ∧
    attempt.createPivot = none

/-- The assertion at a place is acknowledged, recorded if it is a model, and written to its file. -/
def Stores (attempt : Attempt) (i : ℕ) (a : Assertion) : Prop :=
  attempt.ack i = none ∧
    (a.typeName = modelTypeName → attempt.openPivot i = none ∧ attempt.writeCopy i = none) ∧
    attempt.writeAssertion i = none

/-- The serial vault answers with assertions. -/
def Reply.Accepted (reply : Reply) : Prop := reply.submit = none ∧ reply.statusCode = 200

/-- Everything succeeds after the record is created. -/
def Succeeds (attempt : Attempt) : Prop :=
  attempt.writeRemoval = none ∧ (∃ serial others, attempt.serials = .ok (serial :: others)) ∧
    attempt.pivotModel.Accepted ∧ attempt.pivotSerial.Accepted ∧
    ∀ i a, attempt.received[i]? = some a → Stores attempt i a

/-- The record is seen, or not created, or it is new and completed with at least one model. -/
def Meets (attempt : Attempt) (fs : FileSystem) : Prop :=
  ¬ Sees attempt fs → Creates attempt →
    fs attempt.pivotFile = none ∧ Succeeds attempt ∧ modelsOf attempt.received ≠ []

/-! ### Files -/

section

variable {fs : FileSystem} {path other : Path} {text : String} {file : File}

theorem put_self : fs.put path text path = some ⟨text, fs.changes path + 1⟩ :=
  Function.update_self ..

theorem put_other (h : other ≠ path) : fs.put path text other = fs other :=
  Function.update_of_ne h ..

theorem append_self (h : fs path = some file) :
    fs.append path text path = some ⟨file.content ++ text, file.changes + 1⟩ := by
  rw [FileSystem.append, put_self, FileSystem.changes, h]
  rfl

end

/-- The file of an assertion is not the record. -/
theorem pivotFile_ne (attempt : Attempt) (i : ℕ) :
    attempt.pivotFile ≠ attempt.getPath assertsFilename (toString i) := by
  intro h
  have hname : (pivotModelFile ++ "").toList = (assertsFilename ++ toString i).toList :=
    congrArg String.toList (congrArg Prod.snd h)
  rw [String.toList_append, String.toList_append] at hname
  have hhead : 'p' = 'a' := (List.cons.inj hname).1
  exact absurd hhead (by decide)

/-! ### The assertions -/

section

variable {attempt : Attempt}

theorem modelsOf_cons (a : Assertion) (rest : List Assertion) :
    copyLines (a :: rest) =
      if a.typeName = modelTypeName then copyModelAssert a ++ copyLines rest
      else copyLines rest := by
  rw [copyLines, modelsOf, List.filter_cons]
  split_ifs with h₁ h₂ h₂
  · rfl
  · exact absurd (of_decide_eq_true h₁) h₂
  · exact absurd (decide_eq_true h₂) h₁
  · rfl

variable {fs : FileSystem} {file : File} {i : ℕ} {a : Assertion}

/-- What the copying of one assertion does to the record. -/
theorem logAssertionCopy_spec (h : fs attempt.pivotFile = some file) :
    (attempt.openPivot i = none ∧ attempt.writeCopy i = none ∧
      logAssertionCopy attempt attempt.pivotFile i a fs =
        (fs.append attempt.pivotFile (copyModelAssert a), none)) ∨
    (¬ (attempt.openPivot i = none ∧ attempt.writeCopy i = none) ∧
      ∃ err, logAssertionCopy attempt attempt.pivotFile i a fs = (fs, some err)) := by
  rw [logAssertionCopy, h]
  cases attempt.openPivot i with
  | some err => exact .inr ⟨fun h => (by cases h.1), err, rfl⟩
  | none =>
    cases attempt.writeCopy i with
    | some err => exact .inr ⟨fun h => (by cases h.2), err, rfl⟩
    | none => exact .inl ⟨rfl, rfl, rfl⟩

/-- What the loop over the assertions from place `i` on does to the record `file`: it stays and is
never changed back, and the loop succeeds exactly when each assertion is stored; then the record has
the lines of the models. -/
def StoresAll (attempt : Attempt) (i : ℕ) (assertions : List Assertion) (file : File)
    (result : FileSystem × Option Error) : Prop :=
  ∃ file', result.1 attempt.pivotFile = some file' ∧ file.changes ≤ file'.changes ∧
    (result.2 = none ↔ ∀ k a, assertions[k]? = some a → Stores attempt (i + k) a) ∧
    (result.2 = none → file'.content = file.content ++ copyLines assertions)

/-- The loop ends with an error. -/
theorem StoresAll.stop {rest : List Assertion} {file' : File} {err : Error}
    (hfile : fs attempt.pivotFile = some file') (hle : file.changes ≤ file'.changes)
    (hnot : ¬ Stores attempt i a) :
    StoresAll attempt i (a :: rest) file (fs, some err) :=
  ⟨file', hfile, hle, iff_of_false nofun fun h => hnot (h 0 a rfl), nofun⟩

/-- The loop goes on. -/
theorem StoresAll.cons {rest : List Assertion} {file' : File} {result : FileSystem × Option Error}
    (hrest : StoresAll attempt (i + 1) rest file' result) (hle : file.changes ≤ file'.changes)
    (hcontent : file'.content ++ copyLines rest = file.content ++ copyLines (a :: rest))
    (hstores : Stores attempt i a) : StoresAll attempt i (a :: rest) file result := by
  obtain ⟨file'', hfile, hle', hiff, hcontent'⟩ := hrest
  refine ⟨file'', hfile, Nat.le_trans hle hle',
    hiff.trans ⟨fun h k b hget => ?_, fun h k b hget => ?_⟩, fun hnone => (hcontent' hnone).trans hcontent⟩
  · cases k with
    | zero =>
      obtain rfl := Option.some.inj hget
      exact hstores
    | succ k =>
      rw [show i + (k + 1) = i + 1 + k by omega]
      exact h k b hget
  · rw [show i + 1 + k = i + (k + 1) by omega]
    exact h (k + 1) b hget

/-- **The loop over the assertions.** -/
theorem storeAssertions_storesAll (assertions : List Assertion) (i : ℕ)
    (h : fs attempt.pivotFile = some file) :
    StoresAll attempt i assertions file
      (storeAssertions attempt attempt.pivotFile i assertions fs) := by
  induction assertions generalizing i fs file with
  | nil =>
    refine ⟨file, h, Nat.le_refl _, iff_of_true rfl fun k a hget => (by cases hget), fun _ => ?_⟩
    exact String.append_empty.symm
  | cons a rest ih =>
    have hput {fs' : FileSystem} {file' : File} (hfile : fs' attempt.pivotFile = some file') :
        fs'.put (attempt.getPath assertsFilename (toString i)) a.encode attempt.pivotFile =
          some file' := (put_other (pivotFile_ne attempt i)).trans hfile
    rw [storeAssertions]
    cases hack : attempt.ack i with
    | some err => exact .stop h (Nat.le_refl _) fun hstores => nomatch hack.symm.trans hstores.1
    | none =>
      by_cases hmodel : a.typeName = modelTypeName
      · dsimp only
        rw [if_pos hmodel]
        obtain ⟨hopen, hcopy, hlog⟩ | ⟨hnot, err, hlog⟩ :=
          logAssertionCopy_spec (i := i) (a := a) h
        · have happend : fs.append attempt.pivotFile (copyModelAssert a) attempt.pivotFile =
            some ⟨file.content ++ copyModelAssert a, file.changes + 1⟩ := append_self h
          rw [hlog]
          cases hwrite : attempt.writeAssertion i with
          | some err =>
            exact .stop happend (Nat.le_succ _) fun hstores =>
              nomatch hwrite.symm.trans hstores.2.2
          | none =>
            refine .cons (ih (i + 1) (hput happend)) (Nat.le_succ _) ?_
              ⟨hack, fun _ => ⟨hopen, hcopy⟩, hwrite⟩
            rw [modelsOf_cons, if_pos hmodel]
            exact String.append_assoc
        · rw [hlog]
          exact .stop h (Nat.le_refl _) fun hstores => hnot (hstores.2.1 hmodel)
      · dsimp only
        rw [if_neg hmodel]
        cases hwrite : attempt.writeAssertion i with
        | some err =>
          exact .stop h (Nat.le_refl _) fun hstores => nomatch hwrite.symm.trans hstores.2.2
        | none =>
          refine .cons (ih (i + 1) (hput h)) (Nat.le_refl _) ?_
            ⟨hack, fun h => absurd h hmodel, hwrite⟩
          rw [modelsOf_cons, if_neg hmodel]

end

/-! ### One call -/

section

variable {attempt : Attempt} {fs : FileSystem}

theorem getPivotAssertion_eq (reply : Reply) :
    (reply.Accepted ∧ getPivotAssertion reply = .ok reply.decoded) ∨
      (¬ reply.Accepted ∧ ∃ err, getPivotAssertion reply = .error err) := by
  rw [getPivotAssertion, Reply.Accepted]
  cases reply.submit with
  | some err => exact .inr ⟨fun h => (by cases h.1), err, rfl⟩
  | none =>
    split_ifs with hstatus
    · exact .inr ⟨fun h => hstatus h.2, _, rfl⟩
    · exact .inl ⟨⟨rfl, not_not.mp hstatus⟩, rfl⟩

/-- The call ends before the record is created. -/
theorem verifyPivot_of_not_creates (h : Sees attempt fs ∨ ¬ Creates attempt) :
    (verifyPivot attempt fs).1 = fs := by
  by_cases hsees : Sees attempt fs
  · rw [verifyPivot]
    exact congrArg Prod.fst (if_pos hsees)
  · have hcreates := h.resolve_left hsees
    rw [verifyPivot, if_neg (show ¬ (_ ∧ _) from hsees)]
    cases hinfo : attempt.modelInfo with
    | some err => rfl
    | none =>
      cases hmodels : attempt.models with
      | error err => rfl
      | ok models =>
        cases models with
        | nil => rfl
        | cons oldModel others =>
          cases hcreate : attempt.createPivot with
          | none => exact absurd ⟨hinfo, ⟨oldModel, others, hmodels⟩, hcreate⟩ hcreates
          | some err =>
            dsimp only
            rw [logAssertionRemoval, hcreate]

/-- **What a call leaves once it has created the record**: the record has been changed; it is
complete when everything succeeds, and otherwise, unless there is an error, it has only the line of
the old model. -/
theorem verifyPivot_of_creates {oldModel : Assertion} {others : List Assertion}
    (hsees : ¬ Sees attempt fs) (hcreates : Creates attempt)
    (hmodels : attempt.models = .ok (oldModel :: others)) :
    ∃ file, (verifyPivot attempt fs).1 attempt.pivotFile = some file ∧
      fs.changes attempt.pivotFile < file.changes ∧
      (Succeeds attempt → (verifyPivot attempt fs).2 = none ∧
        file.content = removeModelAssert oldModel ++ copyLines attempt.received) ∧
      (¬ Succeeds attempt → (verifyPivot attempt fs).2 = none →
        file.content = removeModelAssert oldModel) := by
  have hcreated : fs.put attempt.pivotFile "" attempt.pivotFile =
      some ⟨"", fs.changes attempt.pivotFile + 1⟩ := put_self
  have hremoved : (fs.put attempt.pivotFile "").append attempt.pivotFile
      (removeModelAssert oldModel) attempt.pivotFile =
        some ⟨"" ++ removeModelAssert oldModel, fs.changes attempt.pivotFile + 1 + 1⟩ :=
    append_self hcreated
  rw [String.empty_append] at hremoved
  have hchanges : fs.changes attempt.pivotFile < fs.changes attempt.pivotFile + 1 + 1 := by omega
  rw [verifyPivot, if_neg (show ¬ (_ ∧ _) from hsees), hcreates.1, hmodels]
  dsimp only
  rw [logAssertionRemoval, hcreates.2.2]
  cases hremoval : attempt.writeRemoval with
  | some err =>
    exact ⟨_, hcreated, Nat.lt_succ_self _, fun h => (by cases hremoval.symm.trans h.1), nofun⟩
  | none =>
    cases hserials : attempt.serials with
    | error err =>
      refine ⟨_, hremoved, hchanges, fun h => ?_, nofun⟩
      obtain ⟨serial, others, hok⟩ := h.2.1
      cases hserials.symm.trans hok
    | ok serials =>
      cases serials with
      | nil =>
        refine ⟨_, hremoved, hchanges, fun h => ?_, fun _ _ => rfl⟩
        obtain ⟨serial, others, hok⟩ := h.2.1
        cases hserials.symm.trans hok
      | cons serial others =>
        dsimp only
        rw [fetchAndStoreAssertions]
        obtain ⟨haccepted, hreply⟩ | ⟨hnot, err, hreply⟩ := getPivotAssertion_eq attempt.pivotModel
        · obtain ⟨haccepted', hreply'⟩ | ⟨hnot, err, hreply'⟩ :=
            getPivotAssertion_eq attempt.pivotSerial
          · rw [hreply, hreply']
            obtain ⟨file, hfile, hle, hiff, hcontent⟩ :=
              storeAssertions_storesAll attempt.received 0 hremoved
            dsimp only at hle hcontent
            simp only [Nat.zero_add] at hiff
            refine ⟨file, hfile, by omega, fun h => ?_, fun h hnone => ?_⟩
            · have hnone := hiff.mpr h.2.2.2.2
              exact ⟨hnone, hcontent hnone⟩
            · exact absurd ⟨hremoval, ⟨serial, others, hserials⟩, haccepted, haccepted',
                hiff.mp hnone⟩ h
          · rw [hreply, hreply']
            exact ⟨_, hremoved, hchanges, fun h => absurd h.2.2.2.1 hnot, nofun⟩
        · rw [hreply]
          exact ⟨_, hremoved, hchanges, fun h => absurd h.2.2.1 hnot, nofun⟩

/-- The lines of a model are not empty. -/
theorem copyLines_length_pos {assertions : List Assertion} (h : modelsOf assertions ≠ []) :
    0 < (copyLines assertions).length := by
  obtain ⟨a, rest, hmodels⟩ := List.exists_cons_of_ne_nil h
  rw [copyLines, hmodels, List.foldr_cons, copyModelAssert]
  simp only [String.length_append]
  exact Nat.lt_of_lt_of_le (show 0 < "+".length by decide) (by omega)

/-- **A call is right exactly** when the record is seen or not created, or when there is none and it
is completed. -/
theorem callRight_iff : CallRight attempt fs ↔ Meets attempt fs := by
  by_cases hstops : Sees attempt fs ∨ ¬ Creates attempt
  · have hsame := verifyPivot_of_not_creates hstops
    refine iff_of_true ⟨fun file h => (congrFun hsame _).trans h,
      fun err _ h => (congrFun hsame _).trans h, fun file _ h h' => ?_⟩ fun hsees hcreates => ?_
    · rw [hsame, h] at h'
      cases h'
    · exact absurd hcreates (hstops.resolve_left hsees)
  · rw [not_or, not_not] at hstops
    obtain ⟨hsees, hcreates⟩ := hstops
    obtain ⟨oldModel, others, hmodels⟩ := hcreates.2.1
    obtain ⟨file, hfile, hchanges, hsucceeds, hfails⟩ :=
      verifyPivot_of_creates hsees hcreates hmodels
    constructor
    · rintro ⟨hkeeps, hcleans, hcompletes⟩ - -
      have habsent : fs attempt.pivotFile = none := by
        cases hbefore : fs attempt.pivotFile with
        | none => rfl
        | some file' =>
          have heq := hfile.symm.trans (hkeeps file' hbefore)
          rw [FileSystem.changes, hbefore, Option.some.inj heq] at hchanges
          exact absurd hchanges (Nat.lt_irrefl _)
      have hnone : (verifyPivot attempt fs).2 = none := by
        cases herr : (verifyPivot attempt fs).2 with
        | none => rfl
        | some err => cases hfile.symm.trans (hcleans err herr habsent)
      obtain ⟨hmodels', oldModel', others', hmodels'', hcontent⟩ :=
        hcompletes file hnone habsent hfile
      refine ⟨habsent, ?_, hmodels'⟩
      by_contra hnot
      rw [hmodels] at hmodels''
      obtain ⟨rfl, rfl⟩ := List.cons.inj (Except.ok.inj hmodels'')
      rw [hfails hnot hnone] at hcontent
      have hlength := congrArg String.length hcontent
      have hpos := copyLines_length_pos hmodels'
      rw [String.length_append] at hlength
      omega
    · intro hmeets
      obtain ⟨habsent, hall, hsome⟩ := hmeets hsees hcreates
      obtain ⟨hnone, hcontent⟩ := hsucceeds hall
      refine ⟨fun file' h => ?_, fun err herr => ?_, fun file' _ _ hfile' => ?_⟩
      · cases habsent.symm.trans h
      · cases hnone.symm.trans herr
      · obtain rfl := Option.some.inj (hfile.symm.trans hfile')
        exact ⟨hsome, oldModel, others, hmodels, hcontent⟩

end

/-! ### Any number of calls -/

/-- Each call of a run is right. -/
def RunRight : List Attempt → FileSystem → Prop
  | [], _ => True
  | attempt :: rest, fs => CallRight attempt fs ∧ RunRight rest (verifyPivot attempt fs).1

/-- Each call of a run sees the record, does not create it, or completes a new one. -/
def RunMeets : List Attempt → FileSystem → Prop
  | [], _ => True
  | attempt :: rest, fs => Meets attempt fs ∧ RunMeets rest (verifyPivot attempt fs).1

/-- **The record of a pivot is all or nothing, and written once**, in the calls of a run exactly
when each of them sees it, does not get as far as creating it, or completes a new one. -/
theorem verifyPivot_right_iff (attempts : List Attempt) (fs : FileSystem) :
    RunRight attempts fs ↔ RunMeets attempts fs := by
  induction attempts generalizing fs with
  | nil => exact Iff.rfl
  | cons attempt rest ih => exact and_congr callRight_iff (ih _)

/-- The assertion of a model. -/
def someModel : Assertion := ⟨modelTypeName, fun _ => "1", "model"⟩

/-- A call in which every operation succeeds; the working directory is not `SNAP_DATA`. -/
def someAttempt : Attempt where
  snapData := "/var/snap/iot/1"
  workingDirectory := "/"
  stat := none
  modelInfo := none
  models := .ok [someModel]
  createPivot := none
  writeRemoval := none
  serials := .ok [someModel]
  pivotModel := ⟨none, 200, [someModel]⟩
  pivotSerial := ⟨none, 200, []⟩
  ack _ := none
  openPivot _ := none
  writeCopy _ := none
  writeAssertion _ := none

/-- **A second call writes the record again**: it looks for it in the working directory. -/
theorem verifyPivot_twice_not_right :
    ¬ RunRight [someAttempt, someAttempt] fun _ => none := by
  rintro ⟨-, ⟨hkeeps, -, -⟩, -⟩
  have hfirst : ((verifyPivot someAttempt fun _ => none).1 someAttempt.pivotFile).map File.changes =
      some 3 := by decide
  have hsecond : ((verifyPivot someAttempt (verifyPivot someAttempt fun _ => none).1).1
      someAttempt.pivotFile).map File.changes = some 6 := by decide
  obtain ⟨file, hfile, hchanges⟩ := Option.map_eq_some_iff.mp hfirst
  rw [hkeeps file hfile, Option.map_some, hchanges] at hsecond
  cases hsecond

end Lwm2m.Pivot
