import Mathlib.Data.Set.Basic
import CallFlow.DrawCommand
import CallFlow.FileTree.Growth
import CallFlow.Proofs.ParallelRun

namespace CallFlow

open FileTree (SameOutside Within)

namespace FileTree

variable {tree after : FileTree} {path : String}

end FileTree

namespace Order

variable {order : Order} {tree other : FileTree} {stems : List String} {stem : String}
  {places : Set Place}

end Order

namespace Job

variable {order : Order} {draw : String → Except Failure String} {tree other : FileTree}
  {stems : List String} {places : Set Place} {job : Job}

end Job

namespace Batch

variable {order : Order} {draw : String → Except Failure String} {sources : List String}
  {stamp : Option Nat} {tree : FileTree}

theorem makeDirectories_of_prepare {prepared : FileTree} {dir : String}
    (h : prepare tree dir = .ok prepared) : tree.makeDirectories dir = .ok prepared := by
  unfold prepare at h
  cases hm : tree.makeDirectories dir with
  | error fault =>
    rw [hm] at h
    cases h
  | ok made =>
    rw [hm] at h
    exact congrArg Except.ok (Except.ok.inj h)

variable {other : FileTree} {batch batch' : Batch} {places : Set Place}

end Batch

namespace Report

def failureKinds (report : Report) : List (Option String) :=
  report.documents.map fun outcome => outcome.failure.map DocumentFailure.kind

end Report

namespace DrawCommand

open CommandLine

variable {command : DrawCommand} {batch : Batch} {tree written : FileTree}

end DrawCommand

namespace Options

variable {options : Options} {layout : Layout} {clock : Nat} {sources : List String}
  {tree : FileTree}

theorem process_eq_error {failure : Failure} :
    options.process layout clock sources tree = .error failure ↔
      Batch.prepare tree options.outputDir = .error failure := by
  unfold process
  cases Batch.prepare tree options.outputDir with
  | error fault =>
    constructor
    · intro h
      obtain rfl : fault = failure := Except.error.inj h
      rfl
    · intro h
      obtain rfl := Except.error.inj h
      rfl
  | ok prepared => exact iff_of_false nofun nofun

theorem process_of_prepare {prepared : FileTree}
    (hp : Batch.prepare tree options.outputDir = .ok prepared) :
    options.process layout clock sources tree =
      .ok ((Batch.start sources (if options.stamp then some clock else none) prepared).follow
        (options.order layout)
        (Batch.schedule (options.order layout) options.parallel sources.length)) := by
  simp only [process, hp]
  rfl

end Options

end CallFlow
