import Constituency.Grammar.UnaryClosure
import Constituency.Proofs.Renaming.Basic

/-!
# Grammars under renaming

Productions are filed by comparing left-hand sides and alternatives, and so renamed
productions are filed as the productions were: under the renamed left-hand sides, in the
same order, with the same repetitions dropped. From then on a grammar is only asked for
its productions in this order. `Grammar.IsRenamed` says that those of one grammar are the
renamed ones of another, and that is all that the closure of phrase kinds under unary
rules needs to visit the renamed kinds in the same order.

## Main declarations

* `Grammar.IsRenamed`      — the grammar is the other one renamed.
* `ofProductions_rename`   — renamed productions form the renamed grammar.
* `IsRenamed.unaryClosure` — unary rules lead to the renamed kinds, in order.
-/

namespace Constituency

variable {ρ : Renaming}

-- ---------------------------------------------------------------------------
-- Lists under an injective map
-- ---------------------------------------------------------------------------

theorem map_eraseDups {α β : Type} [BEq α] [LawfulBEq α] [BEq β] [LawfulBEq β] {f : α → β}
    (hf : Function.Injective f) (l : List α) : (l.map f).eraseDups = l.eraseDups.map f := by
  match l with
  | [] => rfl
  | a :: as =>
    have hrest : ((as.map f).filter fun b => !b == f a) = (as.filter fun b => !b == a).map f := by
      rw [List.filter_map]
      congr 1
      refine List.filter_congr fun b _ => ?_
      simp [hf.eq_iff]
    rw [List.map_cons, List.eraseDups_cons, hrest, map_eraseDups hf, List.eraseDups_cons,
      List.map_cons]
termination_by l.length
decreasing_by exact Nat.lt_succ_of_le (List.length_filter_le _ _)

theorem map_removeAll {f : String → String} (hf : Function.Injective f) (as bs : List String) :
    (as.map f).removeAll (bs.map f) = (as.removeAll bs).map f := by
  rw [List.removeAll, List.removeAll, List.filter_map]
  congr 1
  refine List.filter_congr fun a _ => ?_
  simp [hf.eq_iff]

-- ---------------------------------------------------------------------------
-- Filing productions
-- ---------------------------------------------------------------------------

/-- The entry with its phrase kind and all its alternatives renamed, in the same order. -/
def Entry.rename (ρ : Renaming) (e : Entry) : Entry :=
  ⟨ρ.name e.lhs, e.alternatives.map (List.map (Symbol.rename ρ))⟩

theorem Entry.productions_rename (e : Entry) :
    (e.rename ρ).productions = e.productions.map (Production.rename ρ) := by
  simp [Entry.productions, Entry.rename, Production.rename, Function.comp_def]

theorem insertRule_rename (hρ : ρ.Injective) (p : Production) (es : List Entry) :
    insertRule (p.rename ρ) (es.map (Entry.rename ρ)) = (insertRule p es).map (Entry.rename ρ) := by
  induction es with
  | nil => rfl
  | cons e es ih =>
    have hlhs : (e.rename ρ).lhs = (p.rename ρ).lhs ↔ e.lhs = p.lhs := hρ.name.eq_iff
    have hadd : (e.rename ρ).add (p.rename ρ).rhs = (e.add p.rhs).rename ρ := by
      have hmem : (p.rhs.map (Symbol.rename ρ) ∈ e.alternatives.map (List.map (Symbol.rename ρ))) ↔
          p.rhs ∈ e.alternatives :=
        List.mem_map_of_injective (Symbol.rename_injective hρ).list_map
      by_cases h : p.rhs ∈ e.alternatives <;>
        simp [Entry.add, Entry.rename, hmem, h]
    rw [List.map_cons, insertRule, insertRule]
    by_cases h : e.lhs = p.lhs
    · rw [if_pos (hlhs.2 h), if_pos h, hadd, List.map_cons]
    · rw [if_neg (mt hlhs.1 h), if_neg h, ih, List.map_cons]

theorem entries_foldl_insert_rename (hρ : ρ.Injective) (ps : List Production) {t t' : RuleTable}
    (h : t'.entries = t.entries.map (Entry.rename ρ)) :
    ((ps.map (Production.rename ρ)).foldl RuleTable.insert t').entries =
      (ps.foldl RuleTable.insert t).entries.map (Entry.rename ρ) := by
  induction ps generalizing t t' with
  | nil => exact h
  | cons p ps ih =>
    refine ih ?_
    show insertRule (p.rename ρ) t'.entries = (insertRule p t.entries).map (Entry.rename ρ)
    rw [h, insertRule_rename hρ]

theorem productions_ofList_rename (hρ : ρ.Injective) (ps : List Production) :
    (RuleTable.ofList (ps.map (Production.rename ρ))).productions =
      (RuleTable.ofList ps).productions.map (Production.rename ρ) := by
  have hentries : (RuleTable.ofList (ps.map (Production.rename ρ))).entries =
      (RuleTable.ofList ps).entries.map (Entry.rename ρ) :=
    entries_foldl_insert_rename hρ ps rfl
  rw [RuleTable.productions, hentries, List.flatMap_map, RuleTable.productions, List.map_flatMap]
  exact congrArg (fun f => List.flatMap f _) (funext Entry.productions_rename)

/-- Renaming makes no defect. -/
theorem defects_rename {start : String} {ps : List Production} (h : defects start ps = []) :
    defects (ρ.name start) (ps.map (Production.rename ρ)) = [] := by
  obtain ⟨hne, hstart, hps⟩ := defects_eq_nil_iff.1 h
  have hlhs : (ps.map (Production.rename ρ)).map (·.lhs) = (ps.map (·.lhs)).map ρ.name := by
    simp [Function.comp_def]
  refine defects_eq_nil_iff.2 ⟨by simpa using hne, ?_, List.forall_mem_map.2 fun p hp => ?_⟩
  · rw [hlhs]
    exact List.mem_map_of_mem hstart
  · obtain ⟨hrhs, hclosed⟩ := hps p hp
    refine ⟨by simpa using hrhs, fun b hb => ?_⟩
    obtain ⟨s, hs, hb⟩ := List.mem_map.1 hb
    cases s with
    | terminal w => cases hb
    | nonterminal a =>
      obtain rfl : ρ.name a = b := Symbol.nonterminal.inj hb
      rw [hlhs]
      exact List.mem_map_of_mem (hclosed a hs)

namespace Grammar

/-- The grammar is the other one with new names and words. -/
structure IsRenamed (ρ : Renaming) (g g' : Grammar) : Prop where
  start : g'.start = ρ.name g.start
  productions : g'.productions = g.productions.map (Production.rename ρ)

/-- Renamed productions form the renamed grammar. -/
theorem ofProductions_rename (hρ : ρ.Injective) {start : String} {ps : List Production}
    {g : Grammar} (h : ofProductions start ps = .ok g) :
    ∃ g', ofProductions (ρ.name start) (ps.map (Production.rename ρ)) = .ok g' ∧
      IsRenamed ρ g g' := by
  obtain ⟨hdefects, hstart, hrules⟩ := ofProductions_eq_ok_iff.1 h
  have hok : ∃ g', ofProductions (ρ.name start) (ps.map (Production.rename ρ)) = .ok g' := by
    rw [ofProductions, dif_pos (defects_rename hdefects)]
    exact ⟨_, rfl⟩
  obtain ⟨g', hg'⟩ := hok
  obtain ⟨-, hstart', hrules'⟩ := ofProductions_eq_ok_iff.1 hg'
  refine ⟨g', hg', by rw [hstart', hstart], ?_⟩
  rw [productions, productions, hrules', hrules, productions_ofList_rename hρ]

-- ---------------------------------------------------------------------------
-- Unary rules
-- ---------------------------------------------------------------------------

namespace IsRenamed

variable {g g' : Grammar}

theorem unaryParents (h : IsRenamed ρ g g') (hρ : ρ.Injective) (b : String) :
    g'.unaryParents (ρ.name b) = (g.unaryParents b).map (Production.rename ρ) := by
  rw [Grammar.unaryParents, h.productions, List.filter_map, Grammar.unaryParents]
  congr 1
  refine List.filter_congr fun p _ => ?_
  simp [Production.unaryChild?_rename, hρ.name.eq_iff]

theorem freshParents (h : IsRenamed ρ g g') (hρ : ρ.Injective) (known : List String)
    (b : String) :
    g'.freshParents (known.map ρ.name) (ρ.name b) = (g.freshParents known b).map ρ.name := by
  have hlhs : ((g.unaryParents b).map (Production.rename ρ)).map (·.lhs) =
      ((g.unaryParents b).map (·.lhs)).map ρ.name := by
    simp [Function.comp_def]
  rw [Grammar.freshParents, h.unaryParents hρ, hlhs, map_removeAll hρ.name, map_eraseDups hρ.name,
    Grammar.freshParents]

theorem unaryVisits (h : IsRenamed ρ g g') (hρ : ρ.Injective) (known agenda : List String) :
    g'.unaryVisits (known.map ρ.name) (agenda.map ρ.name) =
      (g.unaryVisits known agenda).map ρ.name := by
  fun_induction g.unaryVisits known agenda with
  | case1 known => rw [List.map_nil, Grammar.unaryVisits]
  | case2 known child agenda fresh ih =>
    rw [List.map_cons, Grammar.unaryVisits, h.freshParents hρ, ← List.map_append,
      ← List.map_append, ih, List.map_cons]

theorem unaryClosure (h : IsRenamed ρ g g') (hρ : ρ.Injective) (found : List String) :
    g'.unaryClosure (found.map ρ.name) = (g.unaryClosure found).map ρ.name :=
  h.unaryVisits hρ found found

end IsRenamed

end Grammar

end Constituency
