import Mathlib.Algebra.Group.End

/-!
# Layered encryption along a chain
-/

namespace Lib.Layers

variable {ι σ : Type*} (layer : ι → Equiv.Perm σ)

def wrap (chain : List ι) (state : σ) : σ :=
  chain.foldr (fun party s => layer party s) state

def peel (chain : List ι) (state : σ) : σ :=
  chain.foldl (fun s party => (layer party).symm s) state

@[simp] theorem wrap_nil (state : σ) : wrap layer [] state = state := rfl

@[simp] theorem wrap_cons (party : ι) (chain : List ι) (state : σ) :
    wrap layer (party :: chain) state = layer party (wrap layer chain state) :=
  rfl

@[simp] theorem peel_cons (party : ι) (chain : List ι) (state : σ) :
    peel layer (party :: chain) state = peel layer chain ((layer party).symm state) :=
  rfl

@[simp] theorem peel_wrap (chain : List ι) (state : σ) :
    peel layer chain (wrap layer chain state) = state := by
  induction chain with
  | nil => rfl
  | cons party chain ih =>
    rw [wrap_cons, peel_cons, Equiv.symm_apply_apply]
    exact ih

theorem foldl_wrap_symm (chain : List ι) (state : σ) : chain.foldl (fun s party => layer party s)
        (wrap (fun party => (layer party).symm) chain state) = state := by
  have h := peel_wrap (fun party => (layer party).symm) chain state
  simpa [peel] using h

end Lib.Layers
