import Lifecycle.Grammar.Item.Parser
import Lifecycle.Proofs.Grammar.Keeping.Blocks

namespace Lifecycle

open Std.Do Text Lifecycle.Tree Lifecycle.Parser

set_option mvcgen.warning false

-- Tokens that are made of others, if there are any.
theorem legible_map {r : Option (List Tree)} {f : List Tree → List Tree}
    (hf : ∀ ts, Legible ts → Legible (f ts)) (h : Legible (r.getD [])) :
    Legible ((r.map f).getD []) := by
  cases r with
  | none => exact .nil
  | some ts => exact hf ts h

namespace Grammar

variable {g : Level} [g.Keeps]

@[spec] theorem functionBody_spec (c₀ : Cursor) :
    ⦃fun c => ⌜c = c₀⌝⦄ functionBody g ⦃⇓? r c => ⌜Reads c₀ c (Legible r.1)⌝⦄ := by
  have hbody := fun d p c₀ => @inGroup_spec (List Tree) d p Legible c₀
  mvcgen [functionBody, hbody] with grind -ring -linarith

@[spec] theorem functionItem_spec (start : Cursor) (attributes : List Tree) (c₀ : Cursor) :
    ⦃fun c => ⌜c = c₀⌝⦄ functionItem g start attributes
    ⦃⇓? r c => ⌜Reads c₀ c (start.Upto c₀ → Legible start.trees → Legible attributes →
      Legible r)⌝⦄ := by
  mvcgen [functionItem] with grind -ring -linarith

@[spec] theorem externCrate_spec (attributes : List Tree) (c₀ : Cursor) :
    ⦃fun c => ⌜c = c₀⌝⦄ externCrate attributes
    ⦃⇓? r c => ⌜Reads c₀ c (Legible attributes → Legible r)⌝⦄ := by
  mvcgen [externCrate] with grind -ring -linarith

-- A word that may come next, and what comes after it.
theorem wordOpt_spec_afterWord (w : String) (c₀ : Cursor) :
    ⦃fun c => ⌜c = c₀⌝⦄ wordOpt w
    ⦃⇓? r c => ⌜MayRead c₀ c (Legible r) ∧ c.trees = afterWord w c₀.trees⌝⦄ := by
  refine triple_iff.2 fun r c hrun => ⟨triple_iff.1 (wordOpt_spec w c₀) r c hrun, ?_⟩
  obtain ⟨hword, hrun⟩ | ⟨hword, hrun⟩ := peek_ite_run_eq_ok hrun
  · obtain ⟨name, rest, htrees, hname⟩ := isWord_iff.1 hword
    have hread : (Parser.word w).run c₀ = .ok ([.ident name], { c₀ with trees := rest }) := by
      simp [Parser.word, htrees, hname]
      rfl
    obtain ⟨-, rfl⟩ := Prod.mk.inj (Except.ok.inj (hread.symm.trans hrun))
    simp [afterWord, isWord, htrees, hname]
  · obtain ⟨-, rfl⟩ := pure_run_eq_ok_iff.1 hrun
    simp [afterWord, hword]

@[spec] theorem foreignFunction_spec (start : Cursor) (attributes : List Tree) (c₀ : Cursor) :
    ⦃fun c => ⌜c = c₀⌝⦄ foreignFunction g start attributes
    ⦃⇓? r c => ⌜Reads c₀ c (start.Upto c₀ → Legible start.trees → Legible attributes →
      Legible r)⌝⦄ := by
  mvcgen [foreignFunction, -wordOpt_spec, wordOpt_spec_afterWord] with grind -ring -linarith

@[spec] theorem foreignStatic_spec (start : Cursor) (attributes : List Tree) (c₀ : Cursor) :
    ⦃fun c => ⌜c = c₀⌝⦄ foreignStatic g start attributes
    ⦃⇓? r c => ⌜Reads c₀ c (start.Upto c₀ → Legible start.trees → Legible attributes →
      Legible r)⌝⦄ := by
  unfold foreignStatic
  refine triple_bind (visibility_spec c₀) fun visibility c₁ h₁ => triple_look (by mvcgen) fun _ => ?_
  refine triple_join (Φ := fun r c => MayRead c₁ c (Legible r)) ?_ fun marker c₂ h₂ => ?_
  · mvcgen with grind -ring -linarith
  refine triple_bind (word_spec "static" c₂) fun staticWord c₃ h₃ => ?_
  refine triple_bind (wordOpt_spec "mut" c₃) fun mutable c₄ h₄ => ?_
  refine triple_bind (ident_spec c₄) fun name c₅ h₅ => ?_
  refine triple_bind (op_spec [':'] c₅ (by decide)) fun colon c₆ h₆ => ?_
  have hhead : Reads c₀ c₆ (Legible attributes → Legible (attributes ++ visibility ++
      (staticWord ++ mutable ++ [.ident name] ++ colon))) := by
    grind -ring -linarith
  clear h₁ h₂ h₃ h₄ h₅ h₆
  mvcgen with grind -ring -linarith

@[spec] theorem foreignType_spec (start : Cursor) (attributes : List Tree) (c₀ : Cursor) :
    ⦃fun c => ⌜c = c₀⌝⦄ foreignType g start attributes
    ⦃⇓? r c => ⌜Reads c₀ c (start.Upto c₀ → Legible start.trees → Legible attributes →
      Legible r)⌝⦄ := by
  mvcgen [foreignType] with grind -ring -linarith [TypeItem.Kept]

@[spec] theorem foreignItem_spec (c₀ : Cursor) :
    ⦃fun c => ⌜c = c₀⌝⦄ foreignItem g ⦃⇓? r c => ⌜Reads c₀ c (Legible r)⌝⦄ := by
  mvcgen [foreignItem] with grind -ring -linarith

@[spec] theorem foreignBlock_spec (attributes : List Tree) (c₀ : Cursor) :
    ⦃fun c => ⌜c = c₀⌝⦄ foreignBlock g attributes
    ⦃⇓? r c => ⌜Reads c₀ c (Legible attributes → Legible r)⌝⦄ := by
  mvcgen [foreignBlock] with grind -ring -linarith

@[spec] theorem useGroup_spec (root : Bool) (c₀ : Cursor) :
    ⦃fun c => ⌜c = c₀⌝⦄ useGroup g root ⦃⇓? r c => ⌜Reads c₀ c (Legible (r.getD []))⌝⦄ := by
  have hbody := fun d p c₀ => @inGroup_spec (Option (List Tree)) d p (fun r => Legible (r.getD [])) c₀
  have hrepeat := fun step a =>
    @repeating_spec (List Tree × Bool × Bool) step (fun s => Legible s.1) a
  mvcgen [useGroup, hbody, hrepeat] with grind -ring -linarith [legible_map]

@[spec] theorem useTree_spec (root : Bool) (c₀ : Cursor) :
    ⦃fun c => ⌜c = c₀⌝⦄ useTree g root ⦃⇓? r c => ⌜Reads c₀ c (Legible (r.getD []))⌝⦄ := by
  mvcgen [useTree] with grind -ring -linarith [legible_map]

@[spec] theorem useItem_spec (start : Cursor) (attributes : List Tree) (c₀ : Cursor) :
    ⦃fun c => ⌜c = c₀⌝⦄ useItem g start attributes
    ⦃⇓? r c => ⌜Reads c₀ c (start.Upto c₀ → Legible start.trees → Legible attributes →
      Legible r)⌝⦄ := by
  mvcgen [useItem] with grind -ring -linarith

@[spec] theorem staticItem_spec (start : Cursor) (attributes : List Tree) (c₀ : Cursor) :
    ⦃fun c => ⌜c = c₀⌝⦄ staticItem g start attributes
    ⦃⇓? r c => ⌜Reads c₀ c (start.Upto c₀ → Legible start.trees → Legible attributes →
      Legible r)⌝⦄ := by
  unfold staticItem
  refine triple_bind (visibility_spec c₀) fun visibility c₁ h₁ => ?_
  refine triple_bind (word_spec "static" c₁) fun staticWord c₂ h₂ => ?_
  refine triple_bind (wordOpt_spec "mut" c₂) fun mutable c₃ h₃ => ?_
  refine triple_bind (ident_spec c₃) fun name c₄ h₄ => ?_
  have hhead : Reads c₀ c₄ (Legible attributes →
      Legible (attributes ++ visibility ++ staticWord ++ mutable ++ [.ident name])) := by
    grind -ring -linarith
  clear h₁ h₂ h₃ h₄
  mvcgen with grind -ring -linarith [-List.append_assoc]

@[spec] theorem moduleItem_spec (attributes : List Tree) (c₀ : Cursor) :
    ⦃fun c => ⌜c = c₀⌝⦄ moduleItem g attributes
    ⦃⇓? r c => ⌜Reads c₀ c (Legible attributes → Legible r)⌝⦄ := by
  mvcgen [moduleItem] with grind -ring -linarith

@[spec] theorem aliasItem_spec (start : Cursor) (attributes : List Tree) (c₀ : Cursor) :
    ⦃fun c => ⌜c = c₀⌝⦄ aliasItem g start attributes
    ⦃⇓? r c => ⌜Reads c₀ c (start.Upto c₀ → Legible start.trees → Legible attributes →
      Legible r)⌝⦄ := by
  mvcgen [aliasItem] with grind -ring -linarith [TypeItem.Kept]

@[spec] theorem fieldTy_spec (unnamed : Bool) (c₀ : Cursor) :
    ⦃fun c => ⌜c = c₀⌝⦄ fieldTy g unnamed ⦃⇓? r c => ⌜Reads c₀ c (Legible r)⌝⦄ := by
  mvcgen [fieldTy] with grind -ring -linarith

@[spec] theorem namedField_spec (c₀ : Cursor) :
    ⦃fun c => ⌜c = c₀⌝⦄ namedField g ⦃⇓? r c => ⌜Reads c₀ c (Legible r)⌝⦄ := by
  mvcgen [namedField] with grind -ring -linarith

@[spec] theorem namedFields_spec (c₀ : Cursor) :
    ⦃fun c => ⌜c = c₀⌝⦄ namedFields g ⦃⇓? r c => ⌜Reads c₀ c (Legible r)⌝⦄ := by
  mvcgen [namedFields] with grind -ring -linarith

@[spec] theorem unnamedFields_spec (c₀ : Cursor) :
    ⦃fun c => ⌜c = c₀⌝⦄ unnamedFields g ⦃⇓? r c => ⌜Reads c₀ c (Legible r)⌝⦄ := by
  mvcgen [unnamedFields] with grind -ring -linarith

@[spec] theorem structBody_spec (c₀ : Cursor) :
    ⦃fun c => ⌜c = c₀⌝⦄ structBody g ⦃⇓? r c => ⌜Reads c₀ c (Legible r)⌝⦄ := by
  mvcgen [structBody] with grind -ring -linarith

@[spec] theorem structItem_spec (attributes : List Tree) (c₀ : Cursor) :
    ⦃fun c => ⌜c = c₀⌝⦄ structItem g attributes
    ⦃⇓? r c => ⌜Reads c₀ c (Legible attributes → Legible r)⌝⦄ := by
  mvcgen [structItem] with grind -ring -linarith

@[spec] theorem variant_spec (c₀ : Cursor) :
    ⦃fun c => ⌜c = c₀⌝⦄ variant g ⦃⇓? r c => ⌜Reads c₀ c (Legible r)⌝⦄ := by
  mvcgen [variant] with grind -ring -linarith

@[spec] theorem enumItem_spec (attributes : List Tree) (c₀ : Cursor) :
    ⦃fun c => ⌜c = c₀⌝⦄ enumItem g attributes
    ⦃⇓? r c => ⌜Reads c₀ c (Legible attributes → Legible r)⌝⦄ := by
  mvcgen [enumItem] with grind -ring -linarith

@[spec] theorem unionItem_spec (attributes : List Tree) (c₀ : Cursor) :
    ⦃fun c => ⌜c = c₀⌝⦄ unionItem g attributes
    ⦃⇓? r c => ⌜Reads c₀ c (Legible attributes → Legible r)⌝⦄ := by
  mvcgen [unionItem] with grind -ring -linarith

@[spec] theorem traitFunction_spec (attributes : List Tree) (c₀ : Cursor) :
    ⦃fun c => ⌜c = c₀⌝⦄ traitFunction g attributes
    ⦃⇓? r c => ⌜Reads c₀ c (Legible attributes → Legible r)⌝⦄ := by
  mvcgen [traitFunction] with grind -ring -linarith

@[spec] theorem traitType_spec (attributes : List Tree) (c₀ : Cursor) :
    ⦃fun c => ⌜c = c₀⌝⦄ traitType g attributes
    ⦃⇓? r c => ⌜Reads c₀ c (Legible attributes → Legible r)⌝⦄ := by
  mvcgen [traitType] with grind -ring -linarith [TypeItem.Kept, -List.append_assoc]

@[spec] theorem traitItem_spec (c₀ : Cursor) :
    ⦃fun c => ⌜c = c₀⌝⦄ traitItem g ⦃⇓? r c => ⌜Reads c₀ c (Legible r)⌝⦄ := by
  mvcgen [traitItem] with grind -ring -linarith

@[spec] theorem traitDeclaration_spec (attributes : List Tree) (c₀ : Cursor) :
    ⦃fun c => ⌜c = c₀⌝⦄ traitDeclaration g attributes
    ⦃⇓? r c => ⌜Reads c₀ c (Legible attributes → Legible r)⌝⦄ := by
  mvcgen [traitDeclaration] with grind -ring -linarith [-List.append_assoc]

@[spec] theorem implInBody_spec (start : Cursor) (attributes : List Attribute) (c₀ : Cursor) :
    ⦃fun c => ⌜c = c₀⌝⦄ implInBody g start attributes
    ⦃⇓? r c => ⌜Reads c₀ c (start.Upto c₀ → Legible start.trees → (∀ a ∈ attributes, a.Kept) →
      Legible r)⌝⦄ := by
  mvcgen [implInBody] with grind -ring -linarith

@[spec] theorem patternMacro_spec (start c₀ : Cursor) :
    ⦃fun c => ⌜c = c₀⌝⦄ patternMacro start
    ⦃⇓? r c => ⌜Reads c₀ c (start.Upto c₀ → Legible start.trees → Legible r)⌝⦄ := by
  mvcgen [patternMacro] with grind -ring -linarith

@[spec] theorem namedBang_spec (attributes : List Tree) (c₀ : Cursor) :
    ⦃fun c => ⌜c = c₀⌝⦄ namedBang attributes
    ⦃⇓? r c => ⌜Reads c₀ c (Legible attributes → Legible r)⌝⦄ := by
  mvcgen [namedBang] with grind -ring -linarith

@[spec] theorem externItem_spec (afterAttributes : Cursor) (attributes : List Tree) (c₀ : Cursor) :
    ⦃fun c => ⌜c = c₀⌝⦄ externItem g afterAttributes attributes
    ⦃⇓? r c => ⌜Reads afterAttributes c (Legible attributes → Legible r)⌝⦄ := by
  mvcgen [externItem] with grind -ring -linarith

@[spec] theorem unsafeItem_spec (start afterAttributes : Cursor) (attributes : List Attribute)
    (c₀ : Cursor) :
    ⦃fun c => ⌜c = c₀⌝⦄ unsafeItem g start afterAttributes attributes
    ⦃⇓? r c => ⌜Reads afterAttributes c (start.Upto afterAttributes → Legible start.trees →
      (∀ a ∈ attributes, a.Kept) → Legible r)⌝⦄ := by
  mvcgen [unsafeItem] with grind -ring -linarith

@[spec] theorem itemAfter_spec (start : Cursor) (attributes : List Attribute) (c₀ : Cursor) :
    ⦃fun c => ⌜c = c₀⌝⦄ itemAfter g start attributes
    ⦃⇓? r c => ⌜Reads c₀ c (start.Upto c₀ → Legible start.trees → (∀ a ∈ attributes, a.Kept) →
      Legible r)⌝⦄ := by
  mvcgen [itemAfter] with grind -ring -linarith

theorem item_spec (c₀ : Cursor) :
    ⦃fun c => ⌜c = c₀⌝⦄ item g ⦃⇓? r c => ⌜Reads c₀ c (Legible r)⌝⦄ := by
  mvcgen [item] with grind -ring -linarith

end Grammar

end Lifecycle
