import CellShader.Proofs.Shader.ImportGraph
import CellShader.Proofs.Shader.CallStack
import Mathlib.Data.List.Chain

/-!
# Reported cycles

The stack of files being expanded is a way through the graph of imports, from the template to the
file at hand, on which no file lies twice (`IsWay`).  A walk keeps it one: it puts only what the
file on top imports on it.  So when a file turns out to be on the stack already, the part of the
stack from there on closes with it (`IsWay.cycleAt`), and a cycle that is reported is one of the
graph (`Config.importCycle_is_of_imports`).
-/

namespace CellShader

open Relation

/-- Whether a chain of names ends where it begins and has no other name twice. -/
structure Closes (chain : List String) : Prop where
  two_le_length : 2 ≤ chain.length
  head_eq_last : chain.head? = chain.getLast?
  nodup_dropLast : chain.dropLast.Nodup

namespace Sources

/-- Whether a stack is a way along imports from a file that can be reached from `root` to `file`, on
which no name lies twice. -/
structure IsWay (s : Sources) (root file : String) (stack : List String) : Prop where
  nodup : stack.Nodup
  isChain : stack.IsChain s.Imports
  getLast?_eq : stack.getLast? = some file
  reached : ∀ name ∈ stack, ReflTransGen s.Imports root name

/-- Whether a chain of names is a cycle of imports that can be reached from `root`. -/
structure IsCycleFrom (s : Sources) (root : String) (chain : List String) : Prop where
  closes : Closes chain
  isChain : chain.IsChain s.Imports
  reached : ∃ first, chain.head? = some first ∧ ReflTransGen s.Imports root first

variable {s : Sources} {root file name : String} {stack : List String}

theorem isWay_root : s.IsWay root root [root] where
  nodup := List.nodup_singleton root
  isChain := List.isChain_singleton root
  getLast?_eq := rfl
  reached := List.forall_mem_singleton.2 .refl

theorem IsWay.reached_last (h : s.IsWay root file stack) : ReflTransGen s.Imports root file :=
  h.reached file (List.mem_of_getLast? h.getLast?_eq)

theorem IsWay.push (h : s.IsWay root file stack) (himports : s.Imports file name)
    (hname : name ∉ stack) : s.IsWay root name (stack ++ [name]) where
  nodup := nodup_push h.nodup hname
  isChain := by
    refine h.isChain.append (List.isChain_singleton name) fun x hx y hy => ?_
    obtain rfl : file = x := Option.some.inj (h.getLast?_eq.symm.trans hx)
    obtain rfl : name = y := Option.some.inj hy
    exact himports
  getLast?_eq := List.getLast?_concat
  reached := List.forall_mem_append.2
    ⟨h.reached, List.forall_mem_singleton.2 (h.reached_last.tail himports)⟩

/-- From a name on it a stack without repetitions goes up to its top. -/
theorem exists_cycleAt_eq (h : stack.Nodup) (hname : name ∈ stack) :
    ∃ below above, stack = below ++ name :: above ∧
      cycleAt stack name = name :: above ++ [name] := by
  obtain ⟨below, above, rfl⟩ := List.append_of_mem hname
  have hbelow : ∀ n ∈ below, (n != name) = true := by
    intro n hn
    have hdisjoint := (List.nodup_append.1 h).2.2
    exact bne_iff_ne.2 (hdisjoint n hn name List.mem_cons_self)
  refine ⟨below, above, rfl, ?_⟩
  rw [cycleAt, List.dropWhile_append_of_pos hbelow]
  simp

/-- A file on the stack closes a cycle with those above it when the topmost one imports it. -/
theorem IsWay.cycleAt (h : s.IsWay root file stack) (himports : s.Imports file name)
    (hname : name ∈ stack) : s.IsCycleFrom root (cycleAt stack name) := by
  obtain ⟨below, above, rfl, hcycle⟩ := exists_cycleAt_eq h.nodup hname
  rw [hcycle]
  have hnodup : (name :: above).Nodup := (List.nodup_append.1 h.nodup).2.1
  have hchain : (name :: above).IsChain s.Imports := h.isChain.right_of_append
  have hlast : (name :: above).getLast? = some file := by
    rw [← h.getLast?_eq, List.getLast?_append_of_ne_nil _ (List.cons_ne_nil name above)]
  refine ⟨⟨by simp, ?_, ?_⟩, ?_, name, rfl, h.reached name hname⟩
  · rw [List.getLast?_concat]
    rfl
  · rwa [List.dropLast_concat]
  · refine hchain.append (List.isChain_singleton name) fun x hx y hy => ?_
    obtain rfl : file = x := Option.some.inj (hlast.symm.trans hx)
    obtain rfl : name = y := Option.some.inj hy
    exact himports

/-- A walk reports a cycle only if it has closed one. -/
theorem Walks.isCycleFrom {d : Directives} {targets : List String} {text : List Char}
    {known : Expanded} {events : List Event} {chain : List String}
    (h : s.Walks file d stack targets text known events (.error (.assembly (.importCycle chain))))
    (hway : s.IsWay root file stack)
    (himports : ∀ target ∈ targets, s.Imports file (d.nameOf target)) :
    s.IsCycleFrom root chain := by
  generalize hr : (Except.error (.assembly (.importCycle chain)) :
    Except Failure (List Char × Expanded)) = r at h
  induction h with
  | done | refused | outside | unreadable | unopened | undecodable | declaredTwice => cases hr
  | cycle _ hmem =>
    cases hr
    exact hway.cycleAt (himports _ List.mem_cons_self) hmem
  | kept _ _ _ _ ih => exact ih hway (fun t ht => himports t (List.mem_cons_of_mem _ ht)) hr
  | failed _ hstack _ hread hscan _ ih =>
    exact ih (hway.push (himports _ List.mem_cons_self) hstack)
      (fun t ht => (imports_iff_of_ofText hread hscan).2 ⟨t, ht, rfl⟩) hr
  | expanded _ _ _ _ _ _ _ _ ih =>
    -- the file that came to its end is off the stack again
    exact ih hway (fun t ht => himports t (List.mem_cons_of_mem _ ht)) hr

theorem Resolves.isCycleFrom {template : String} {events : List Event} {chain : List String}
    (h : s.Resolves template events (.error (.assembly (.importCycle chain)))) :
    s.IsCycleFrom (Path.normalise template) chain := by
  generalize hr : (Except.error (.assembly (.importCycle chain)) :
    Except Failure (List Char)) = r at h
  cases h with
  | refused | outside | unreadable | unopened | undecodable | declaredTwice => cases hr
  | @expanded _ d _ result hin hread hscan walk =>
    cases result with
    | ok x => cases hr
    | error e =>
      cases hr
      exact walk.isCycleFrom isWay_root
        fun t ht => (imports_iff_of_ofText hread hscan).2 ⟨t, ht, rfl⟩

end Sources

/-- A chain that is reported as a cycle ends where it begins and has no other file twice, each of
its files imports the next, and the template leads to the first. -/
theorem Config.importCycle_is_of_imports (c : Config) (t : FileTree) (template : String)
    (chain : List String)
    (h : (c.resolve t template).outcome = .error (.assembly (.importCycle chain))) :
    2 ≤ chain.length ∧ chain.head? = chain.getLast? ∧ chain.dropLast.Nodup ∧
      chain.IsChain (c.sources t).Imports ∧
      ∃ first, chain.head? = some first ∧
        ReflTransGen (c.sources t).Imports (Path.normalise template) first := by
  have hresolves := c.resolves t template
  rw [h] at hresolves
  obtain ⟨hcloses, hchain, hreached⟩ := hresolves.isCycleFrom
  exact ⟨hcloses.two_le_length, hcloses.head_eq_last, hcloses.nodup_dropLast, hchain, hreached⟩

/-- A template that imports a file twice and then leads into a cycle that it does not lie on. -/
def FileTree.lasso : FileTree where
  here := []
  entries := [(["main"], .file (Text.encode "#import a\n#import lib/b".toList)),
    (["a"], .file (Text.encode "y".toList)), (["lib"], .directory),
    (["lib", "b"], .file
      (Text.encode "#define_import_path lib\n#import ../a\n#import c".toList)),
    (["lib", "c"], .file (Text.encode "#import lib/./b".toList))]

/-- The chain of a cycle that is reported. -/
def reportedCycle? {α : Type} : Except Failure α → Option (List String)
  | .error (.assembly (.importCycle chain)) => some chain
  | _ => none

theorem eq_importCycle_of_reportedCycle? {α : Type} {x : Except Failure α} {chain : List String}
    (h : reportedCycle? x = some chain) : x = .error (.assembly (.importCycle chain)) := by
  unfold reportedCycle? at h
  split at h
  · rw [Option.some.inj h]
  · cases h

theorem Config.importCycle_lasso :
    ((Config.mk "/" false "").resolve .lasso "main").outcome =
        .error (.assembly (.importCycle ["lib/b", "lib/c", "lib/b"])) ∧
      ["lib/b", "lib/c", "lib/b"].IsChain ((Config.mk "/" false "").sources .lasso).Imports ∧
      ReflTransGen ((Config.mk "/" false "").sources .lasso).Imports "main" "lib/b" := by
  have h : ((Config.mk "/" false "").resolve .lasso "main").outcome =
      .error (.assembly (.importCycle ["lib/b", "lib/c", "lib/b"])) :=
    eq_importCycle_of_reportedCycle? (by decide +kernel)
  obtain ⟨-, -, -, hchain, first, hfirst, hreached⟩ := importCycle_is_of_imports _ _ _ _ h
  obtain rfl : "lib/b" = first := Option.some.inj hfirst
  exact ⟨h, hchain, hreached⟩

end CellShader
