import Mathlib.Data.List.AList
import Netcatty.Library.Crash

/-! # Directories of named files

A directory is a finite map from names to files.  The primitives below are the calls by which a file
is published without overwriting another: create a new file, write it, synchronize, link it under a
second name, unlink the first.  Each is one step (a write is two, so that a run can be stopped with
a part of the bytes written), and each may fail. -/

namespace Netcatty.FileSystem

open Crash

variable {ν ι : Type} [DecidableEq ν]

abbrev Bytes := List UInt8

/-- A regular file with its bytes, or anything else that a name can stand for. -/
inductive File
  | regular (bytes : Bytes)
  | irregular
  deriving DecidableEq

abbrev Directory (ν : Type) := AList fun _ : ν => File

/-- What the surroundings do at one step. -/
structure Choice (ι : Type) where
  id : ι
  fault : Bool
  written : ℕ

inductive IoError
  | alreadyExists
  | other
  deriving DecidableEq

/-- The bytes of a regular file of bounded length. -/
def readBounded (d : Directory ν) (name : ν) (maxBytes : ℕ) : Option Bytes :=
  match d.lookup name with
  | some (.regular bytes) => if bytes.length ≤ maxBytes then some bytes else none
  | _ => none

section Primitives

abbrev DirectoryProg (ν ι α : Type) := Prog (Directory ν) (Choice ι) α

def drawId : DirectoryProg ν ι ι := .step fun t d => (t.id, d)

def createNew (name : ν) : DirectoryProg ν ι (Except IoError Unit) := .step fun t d =>
  if t.fault then (.error .other, d)
  else if name ∈ d then (.error .alreadyExists, d)
  else (.ok (), d.insert name (.regular []))

/-- A first part of the bytes is written, then the rest. -/
def writeAll (name : ν) (bytes : Bytes) : DirectoryProg ν ι (Except IoError Unit) := do
  if ← .step fun t d => (t.fault, d.insert name (.regular (bytes.take t.written))) then
    return .error .other
  else
    .step fun t d =>
      if t.fault then (.error .other, d) else (.ok (), d.insert name (.regular bytes))

/-- `sync_all`, of a file or of a directory. -/
def syncAll : DirectoryProg ν ι (Except IoError Unit) := .step fun t d =>
  (if t.fault then .error .other else .ok (), d)

def hardLink (source target : ν) : DirectoryProg ν ι (Except IoError Unit) := .step fun t d =>
  if t.fault then (.error .other, d)
  else if target ∈ d then (.error .alreadyExists, d)
  else
    match d.lookup source with
    | some file => (.ok (), d.insert target file)
    | none => (.error .other, d)

def removeFile (name : ν) : DirectoryProg ν ι (Except IoError Unit) := .step fun t d =>
  if t.fault then (.error .other, d) else (.ok (), d.erase name)

/-- The file takes the other name, in place of what had it. -/
def rename (source target : ν) : DirectoryProg ν ι (Except IoError Unit) := .step fun t d =>
  if t.fault then (.error .other, d)
  else
    match d.lookup source with
    | some file => (.ok (), (d.erase source).insert target file)
    | none => (.error .other, d)

def tryExists (name : ν) : DirectoryProg ν ι (Except IoError Bool) := .step fun t d =>
  if t.fault then (.error .other, d) else (.ok (name ∈ d), d)

def readDir : DirectoryProg ν ι (Except IoError (List ν)) := .step fun t d =>
  (if t.fault then .error .other else .ok d.keys, d)

/-- A question about the directory, which may go unanswered. -/
def inspect {α : Type} (question : Directory ν → α) : DirectoryProg ν ι (Except IoError α) :=
  .step fun t d => (if t.fault then .error .other else .ok (question d), d)

end Primitives

/-! ### Rules -/

section Rules

variable {P : Directory ν → Prop} {C : Directory ν → Prop}

omit [DecidableEq ν] in
theorem drawId_spec (hC : ∀ d, P d → C d) :
    Triple P (drawId : DirectoryProg ν ι ι) (fun _ => P) C :=
  Triple.step hC fun _ _ h => h

theorem createNew_spec (name : ν) (hC : ∀ d, P d → C d) :
    Triple P (createNew name : DirectoryProg ν ι _)
      (fun r d => match r with
        | .ok () => ∃ d₀, P d₀ ∧ name ∉ d₀ ∧ d = d₀.insert name (.regular [])
        | .error _ => P d) C := by
  refine Triple.step hC fun t d h => ?_
  cases t.fault with
  | true => exact h
  | false =>
      by_cases hmem : name ∈ d
      · simpa [hmem] using h
      · simpa [hmem] using ⟨d, h, hmem, rfl⟩

omit [DecidableEq ν] in
theorem syncAll_spec (hC : ∀ d, P d → C d) :
    Triple P (syncAll : DirectoryProg ν ι _) (fun _ => P) C :=
  Triple.step hC fun _ _ h => h

omit [DecidableEq ν] in
theorem inspect_spec {α : Type} (question : Directory ν → α) (hC : ∀ d, P d → C d) :
    Triple P (inspect question : DirectoryProg ν ι _)
      (fun r d => P d ∧ ∀ a, r = .ok a → a = question d) C := by
  refine Triple.step hC fun t d h => ⟨h, fun a ha => ?_⟩
  cases hfault : t.fault <;> simp_all

theorem tryExists_spec (name : ν) (hC : ∀ d, P d → C d) :
    Triple P (tryExists name : DirectoryProg ν ι _)
      (fun r d => P d ∧ ∀ b, r = .ok b → b = decide (name ∈ d)) C := by
  refine Triple.step hC fun t d h => ?_
  cases t.fault with
  | true => exact ⟨h, fun b hb => by simp at hb⟩
  | false => exact ⟨h, fun b hb => by simpa [eq_comm] using hb⟩

omit [DecidableEq ν] in
theorem readDir_spec (hC : ∀ d, P d → C d) :
    Triple P (readDir : DirectoryProg ν ι _) (fun _ => P) C :=
  Triple.step hC fun _ _ h => h

/-- A file that is written holds a first part of the bytes wherever the run is stopped. -/
theorem writeAll_spec (name : ν) (bytes : Bytes) {R : Directory ν → Prop} (hC : ∀ d, P d → C d)
    (hRC : ∀ d, R d → C d)
    (hR : ∀ d n, P d ∨ R d → R (d.insert name (.regular (bytes.take n)))) :
    Triple P (writeAll name bytes : DirectoryProg ν ι _)
      (fun r d => match r with
        | .ok () => ∃ d₀, R d₀ ∧ d = d₀.insert name (.regular bytes)
        | .error _ => R d) C := by
  refine Triple.bind (R := fun _ => R) (Triple.step hC fun t d h => hR d t.written (.inl h)) ?_
  intro failed
  cases failed with
  | true => exact Triple.pure fun _ h => h
  | false =>
      refine Triple.step hRC fun t d h => ?_
      cases t.fault with
      | true => exact h
      | false => exact ⟨d, h, rfl⟩

theorem hardLink_spec (source target : ν) (hC : ∀ d, P d → C d) :
    Triple P (hardLink source target : DirectoryProg ν ι _)
      (fun r d => match r with
        | .ok () => ∃ d₀ file, P d₀ ∧ target ∉ d₀ ∧ d₀.lookup source = some file ∧
            d = d₀.insert target file
        | .error _ => P d) C := by
  refine Triple.step hC fun t d h => ?_
  cases t.fault with
  | true => exact h
  | false =>
      by_cases hmem : target ∈ d
      · simpa [hmem] using h
      · cases hfile : d.lookup source with
        | none => simpa [hmem, hfile] using h
        | some file => simpa [hmem, hfile] using ⟨d, h, hmem, file, hfile, rfl⟩

theorem rename_spec (source target : ν) (hC : ∀ d, P d → C d) :
    Triple P (rename source target : DirectoryProg ν ι _)
      (fun r d => match r with
        | .ok () => ∃ d₀ file, P d₀ ∧ d₀.lookup source = some file ∧
            d = (d₀.erase source).insert target file
        | .error _ => P d) C := by
  refine Triple.step hC fun t d h => ?_
  cases t.fault with
  | true => exact h
  | false =>
      cases hfile : d.lookup source with
      | none => simpa [hfile] using h
      | some file => simpa [hfile] using ⟨d, h, file, hfile, rfl⟩

theorem removeFile_spec (name : ν) (hC : ∀ d, P d → C d) :
    Triple P (removeFile name : DirectoryProg ν ι _)
      (fun _ d => P d ∨ ∃ d₀, P d₀ ∧ d = d₀.erase name) C := by
  refine Triple.step hC fun t d h => ?_
  cases t.fault with
  | true => exact .inl h
  | false => exact .inr ⟨d, h, rfl⟩

/-- The same, with what the result says. -/
theorem removeFile_wp (name : ν) (hC : ∀ d, P d → C d) :
    Triple P (removeFile name : DirectoryProg ν ι _)
      (fun r d => match r with
        | .ok () => ∃ d₀, P d₀ ∧ d = d₀.erase name
        | .error _ => P d) C := by
  refine Triple.step hC fun t d h => ?_
  cases t.fault with
  | true => exact h
  | false => exact ⟨d, h, rfl⟩

end Rules

end Netcatty.FileSystem
