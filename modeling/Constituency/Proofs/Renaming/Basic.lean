import Constituency.Chart.Derivation
import Constituency.Tree.Basic
import Mathlib.Data.Set.Function
import Mathlib.SetTheory.Cardinal.Arithmetic

/-!
# Renaming

A renaming gives new names to the phrase kinds and new spellings to the words. The two
are separate, as a phrase kind and a word are different symbols even when they are
spelled alike, and they may be spelled alike before and not after, or the other way
round.

Names and words are only ever compared, so all that is asked of a renaming is that it
keeps different ones apart. Arguments about the parser are simplest for a renaming that
does so everywhere. One that does so for the names and words of a grammar and a sentence
agrees on these with one that does so everywhere (`exists_injective_agreeing`), because
there are finitely many of them and endlessly many strings.

## Main declarations

* `Renaming`, `Renaming.Injective` — a renaming, and one that merges nothing.
* `Symbol.rename`, `Production.rename`, `Derivation.rename`, `Tree.rename` — its effect.
* `exists_injective_agreeing`      — a renaming can be extended to all strings.
-/

namespace Constituency

/-- New names for the phrase kinds and new spellings for the words. -/
structure Renaming where
  name : String → String
  word : String → String

/-- A renaming that keeps different names, and different words, apart. -/
structure Renaming.Injective (ρ : Renaming) : Prop where
  name : Function.Injective ρ.name
  word : Function.Injective ρ.word

variable (ρ : Renaming)

namespace Symbol

/-- The symbol under its new name or spelling. It stays a word or a phrase kind. -/
def rename : Symbol → Symbol
  | .terminal w => .terminal (ρ.word w)
  | .nonterminal a => .nonterminal (ρ.name a)

variable {ρ}

theorem rename_injective (hρ : ρ.Injective) : Function.Injective (rename ρ) := by
  intro s t h
  cases s <;> cases t <;> simp_all [rename, hρ.name.eq_iff, hρ.word.eq_iff]

end Symbol

namespace Production

/-- The production with every symbol renamed, on both sides. -/
def rename (p : Production) : Production :=
  ⟨ρ.name p.lhs, p.rhs.map (Symbol.rename ρ)⟩

variable {ρ}

@[simp] theorem lhs_rename (p : Production) : (p.rename ρ).lhs = ρ.name p.lhs := rfl

@[simp] theorem rhs_rename (p : Production) : (p.rename ρ).rhs = p.rhs.map (Symbol.rename ρ) := rfl

theorem rename_injective (hρ : ρ.Injective) : Function.Injective (rename ρ) := by
  rintro ⟨a, rhs⟩ ⟨b, rhs'⟩ h
  obtain ⟨hlhs, hrhs⟩ := Production.mk.inj h
  obtain rfl : a = b := hρ.name hlhs
  obtain rfl : rhs = rhs' := (Symbol.rename_injective hρ).list_map hrhs
  rfl

theorem isLexical_rename (p : Production) : (p.rename ρ).isLexical = p.isLexical := by
  obtain ⟨a, rhs⟩ := p
  match rhs with
  | [] => rfl
  | [.terminal w] => rfl
  | [.nonterminal b] => rfl
  | s :: s' :: rest => cases s <;> rfl

theorem unaryChild?_rename (p : Production) :
    (p.rename ρ).unaryChild? = p.unaryChild?.map ρ.name := by
  obtain ⟨a, rhs⟩ := p
  match rhs with
  | [] => rfl
  | [.terminal w] => rfl
  | [.nonterminal b] => rfl
  | s :: s' :: rest => cases s <;> rfl

end Production

/-- The part with its phrase kind renamed. A word is named by its position, which stays. -/
def Part.rename : Part → Part
  | .leaf i => .leaf i
  | .node u b => .node u (ρ.name b)

/-- The derivation with its production and its parts renamed, over the same spans. -/
def Derivation.rename (d : Derivation) : Derivation :=
  ⟨d.production.rename ρ, d.parts.map (Part.rename ρ)⟩

variable {ρ} in
@[simp] theorem Derivation.symbol_rename (d : Derivation) :
    (d.rename ρ).symbol = ρ.name d.symbol := rfl

namespace Tree

mutual
/-- The tree with every label renamed. -/
def rename : Tree → Tree
  | .node l cs => .node (l.rename ρ) (renameAll cs)
/-- The trees, each with every label renamed. -/
def renameAll : List Tree → List Tree
  | [] => []
  | t :: ts => rename t :: renameAll ts
end

variable {ρ}

theorem renameAll_eq_map (ts : List Tree) : renameAll ρ ts = ts.map (rename ρ) := by
  induction ts with
  | nil => rfl
  | cons t ts ih => rw [renameAll, ih, List.map_cons]

theorem rename_node (l : Symbol) (cs : List Tree) :
    (node l cs).rename ρ = node (l.rename ρ) (cs.map (rename ρ)) := by
  rw [rename, renameAll_eq_map]

theorem rename_leaf (w : String) : (leaf w).rename ρ = leaf (ρ.word w) := rename_node _ _

theorem rename_branch (a : String) (cs : List Tree) :
    (branch a cs).rename ρ = branch (ρ.name a) (cs.map (rename ρ)) := rename_node _ _

end Tree

-- ---------------------------------------------------------------------------
-- Extending a renaming
-- ---------------------------------------------------------------------------

/-- A function that keeps finitely many strings apart agrees on them with one that keeps
all strings apart. -/
theorem exists_injective_agreeing {f : String → String} {names : Set String}
    (hfinite : names.Finite) (hf : Set.InjOn f names) :
    ∃ f' : String → String, Function.Injective f' ∧ ∀ a ∈ names, f' a = f a := by
  have hlt : Cardinal.mk names < Cardinal.mk String :=
    (Cardinal.lt_aleph0_iff_set_finite.2 hfinite).trans_le (Cardinal.aleph0_le_mk String)
  obtain ⟨g, hg⟩ := Cardinal.extend_function_of_lt ⟨_, hf.injective⟩ hlt ⟨Equiv.refl String⟩
  exact ⟨g, g.injective, fun a ha => hg ⟨a, ha⟩⟩

end Constituency
