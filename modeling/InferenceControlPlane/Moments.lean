import InferenceControlPlane.Interleaving

/-!
# What a member finds at its moments

The calls of a member are answered at moments of a run, one after the other. What a reading of
the shared state can only go through in one direction, a member reads in that direction too.
-/
namespace InferenceControlPlane.Pool

variable {ι Op α σ τ : Type} {Reply : Op → Type} [DecidableEq ι] {stamp : σ → τ}
  {answers : σ → (op : Op) → Reply op → σ → Prop} {drift : σ → σ → Prop}
  {init pool : Pool ι Op Reply α σ} {labels : List (τ × Act ι Op Reply)}

end InferenceControlPlane.Pool
