/-
# Becoming a reseller model

`pivot/pivot.go`: a device asks the serial vault for the assertions of its reseller model, and
writes to the file `pivot-model` what the next boot has to remove and to copy.

A path is kept as its directory and its name.  What the operations outside the file answer, and
whether each operation on a file succeeds, is an input of the call (`Attempt`); an operation that
fails changes nothing.
-/

import Mathlib.Data.Nat.Notation
import Mathlib.Logic.Function.Basic
import Mathlib.Tactic.SplitIfs

namespace Lwm2m.Pivot

/-! ### Files -/

/-- The directory and the name of a file. -/
abbrev Path := String × String

/-- A file, and how often it was changed. -/
structure File where
  content : String
  changes : ℕ
  deriving DecidableEq, Repr

/-- The files that exist. -/
abbrev FileSystem := Path → Option File

/-- An error of the Go code. -/
abbrev Error := String

/-- The changes of a file, if there is one. -/
def FileSystem.changes (fs : FileSystem) (path : Path) : ℕ := (fs path).elim 0 File.changes

/-- The file gets a new content. -/
def FileSystem.put (fs : FileSystem) (path : Path) (content : String) : FileSystem :=
  Function.update fs path (some ⟨content, fs.changes path + 1⟩)

/-- `WriteString` on a file that is open at its end. -/
def FileSystem.append (fs : FileSystem) (path : Path) (text : String) : FileSystem :=
  fs.put path ((fs path).elim "" File.content ++ text)

/-! ### What a call meets -/

/-- What is used of `asserts.Assertion`. -/
structure Assertion where
  /-- `Type().Name`. -/
  typeName : String
  /-- `HeaderString`. -/
  headerString : String → String
  /-- `asserts.Encode`. -/
  encode : String

/-- The reply of the serial vault: whether the request fails, the status, and the assertions that
are decoded before the end of the body or the first one that cannot be decoded. -/
structure Reply where
  submit : Option Error
  statusCode : ℕ
  decoded : List Assertion

/-- What a call of `VerifyPivot` meets; the operations on an assertion are told apart by its place
in the list. -/
structure Attempt where
  /-- `SNAP_DATA`. -/
  snapData : String
  workingDirectory : String
  stat : Option Error
  /-- `snapdapi.GetModelInfo`. -/
  modelInfo : Option Error
  /-- `snappy.Known` for models. -/
  models : Except Error (List Assertion)
  createPivot : Option Error
  writeRemoval : Option Error
  /-- `snappy.Known` for serials. -/
  serials : Except Error (List Assertion)
  pivotModel : Reply
  pivotSerial : Reply
  /-- `snappy.Ack`. -/
  ack : ℕ → Option Error
  openPivot : ℕ → Option Error
  writeCopy : ℕ → Option Error
  writeAssertion : ℕ → Option Error

/-! ### The code -/

/-- `assertsFilename`. -/
def assertsFilename : String := "assertion"
/-- `pivotModelFile`. -/
def pivotModelFile : String := "pivot-model"
/-- `assertsPath`. -/
def assertsPath : String := "/var/lib/snapd/assertions/asserts-v0/model"
/-- `seedPath`. -/
def seedPath : String := "/var/lib/snapd/seed/assertions/asserts-v0/model"
/-- `asserts.ModelType.Name`. -/
def modelTypeName : String := "model"

/-- `GetPath`. -/
def Attempt.getPath (attempt : Attempt) (f suffix : String) : Path :=
  (attempt.snapData, f ++ suffix)

/-- The series, the brand and the model of a model assertion, as a path. -/
def Assertion.path (a : Assertion) : String :=
  a.headerString "series" ++ "/" ++ a.headerString "brand-id" ++ "/" ++ a.headerString "model"

/-- The line that has the old model removed. -/
def removeModelAssert (oldModel : Assertion) : String :=
  "-" ++ assertsPath ++ "/" ++ oldModel.path ++ "/active\n"

/-- The line that has a new model copied. -/
def copyModelAssert (newModel : Assertion) : String :=
  "+" ++ assertsPath ++ "/" ++ newModel.path ++ "/active " ++ seedPath ++ "/" ++ newModel.path ++
    "/\n"

/-- `logAssertionRemoval`. -/
def logAssertionRemoval (attempt : Attempt) (pivotFile : Path) (oldModel : Assertion)
    (fs : FileSystem) : FileSystem × Option Error :=
  match attempt.createPivot with
  | some err => (fs, some err)
  | none =>
    let fs := fs.put pivotFile ""
    match attempt.writeRemoval with
    | some err => (fs, some err)
    | none => (fs.append pivotFile (removeModelAssert oldModel), none)

/-- `logAssertionCopy` for the assertion at a place; the file is not created. -/
def logAssertionCopy (attempt : Attempt) (pivotFile : Path) (i : ℕ) (newModel : Assertion)
    (fs : FileSystem) : FileSystem × Option Error :=
  match attempt.openPivot i with
  | some err => (fs, some err)
  | none =>
    match fs pivotFile with
    | none => (fs, some "no such file or directory")
    | some _ =>
      match attempt.writeCopy i with
      | some err => (fs, some err)
      | none => (fs.append pivotFile (copyModelAssert newModel), none)

/-- `getPivotAssertion`.  The error that ends the decoding is never returned, as the one in the loop
hides the one outside. -/
def getPivotAssertion (reply : Reply) : Except Error (List Assertion) :=
  match reply.submit with
  | some err => .error err
  | none =>
    if reply.statusCode ≠ 200 then .error "Error retrieving the model assertion"
    else .ok reply.decoded

/-- The loop of `fetchAndStoreAssertions`, from the assertion at place `i` on. -/
def storeAssertions (attempt : Attempt) (pivotFile : Path) :
    ℕ → List Assertion → FileSystem → FileSystem × Option Error
  | _, [], fs => (fs, none)
  | i, a :: rest, fs =>
    match attempt.ack i with
    | some err => (fs, some err)
    | none =>
      let (fs, copied) :=
        if a.typeName = modelTypeName then logAssertionCopy attempt pivotFile i a fs else (fs, none)
      match copied with
      | some err => (fs, some err)
      | none =>
        match attempt.writeAssertion i with
        | some err => (fs, some err)
        | none =>
          storeAssertions attempt pivotFile (i + 1) rest
            (fs.put (attempt.getPath assertsFilename (toString i)) a.encode)

/-- `fetchAndStoreAssertions`. -/
def fetchAndStoreAssertions (attempt : Attempt) (pivotFile : Path) (fs : FileSystem) :
    FileSystem × Option Error :=
  match getPivotAssertion attempt.pivotModel with
  | .error err => (fs, some err)
  | .ok models =>
    match getPivotAssertion attempt.pivotSerial with
    | .error err => (fs, some err)
    | .ok serials => storeAssertions attempt pivotFile 0 (models ++ serials) fs

/-- `VerifyPivot`.  The file whose presence ends the call is looked up in the working directory. -/
def verifyPivot (attempt : Attempt) (fs : FileSystem) : FileSystem × Option Error :=
  let pivotFile := attempt.getPath pivotModelFile ""
  if attempt.stat = none ∧ (fs (attempt.workingDirectory, pivotModelFile)).isSome then (fs, none)
  else
    match attempt.modelInfo with
    | some err => (fs, some err)
    | none =>
      match attempt.models with
      | .error err => (fs, some err)
      | .ok [] => (fs, none)
      | .ok (oldModel :: _) =>
        match logAssertionRemoval attempt pivotFile oldModel fs with
        | (fs, some err) => (fs, some err)
        | (fs, none) =>
          match attempt.serials with
          | .error err => (fs, some err)
          | .ok [] => (fs, none)
          | .ok (_ :: _) => fetchAndStoreAssertions attempt pivotFile fs

end Lwm2m.Pivot
