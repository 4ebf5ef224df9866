import Lqxp.Data.AssocMap

/-!
This module contains caches in front of a source of values: what makes such a cache coherent, and what keeps it
so when an entry is added, when entries are dropped and when the source changes.
-/

namespace ReadThrough

variable {ι κ ν ω : Type} [DecidableEq κ]

/--
Every live entry of a cache holds a value that the source has under some id, and is kept under one of the keys of
this value.
-/
def Coherent (source : ι → Option ν) (keys : ν → List κ) (holds : ω → ν → Prop) (live : ω → Prop)
    (cache : AssocMap κ ω) : Prop :=
  cache.All fun key c => live c → ∃ i v, source i = some v ∧ key ∈ keys v ∧ holds c v

namespace Coherent

variable {source : ι → Option ν} {keys : ν → List κ} {holds : ω → ν → Prop} {live live' : ω → Prop}
  {cache : AssocMap κ ω}

theorem empty : Coherent source keys holds live (∅ : AssocMap κ ω) :=
  AssocMap.All.empty

theorem insert {key : κ} {c : ω} {i : ι} {v : ν} (h : Coherent source keys holds live cache)
    (hsource : source i = some v) (hkey : key ∈ keys v) (hholds : holds c v)
    : Coherent source keys holds live (cache.insert key c) :=
  AssocMap.All.insert h fun _ => ⟨i, v, hsource, hkey, hholds⟩

theorem expire (h : Coherent source keys holds live cache) (hlive : ∀ c, live' c → live c)
    : Coherent source keys holds live' cache :=
  fun key c hc hlive' => h key c hc (hlive c hlive')

theorem hit {key : κ} {c : ω} (h : Coherent source keys holds live cache) (hc : cache.lookup key = some c)
    (hlive : live c) : ∃ i v, source i = some v ∧ holds c v := by
  obtain ⟨i, v, hsource, -, hholds⟩ := h key c hc hlive
  exact ⟨i, v, hsource, hholds⟩

end Coherent

/--
A move of the source and of the cache together: entries may be dropped, and of a value that the source has no
longer no live entry is left under its keys.
-/
structure Moves (keys : ν → List κ) (live : ω → Prop) (source : ι → Option ν) (cache : AssocMap κ ω)
    (source' : ι → Option ν) (cache' : AssocMap κ ω) : Prop where
  kept (key : κ) (c : ω) : cache'.lookup key = some c → cache.lookup key = some c
  change (i : ι) (v : ν) : source i = some v →
    source' i = some v ∨ ∀ key ∈ keys v, ∀ c, cache'.lookup key = some c → ¬ live c

namespace Moves

variable {source source' source'' : ι → Option ν} {keys : ν → List κ} {live : ω → Prop}
  {cache cache' cache'' : AssocMap κ ω}

theorem refl : Moves keys live source cache source cache := ⟨fun _ _ h => h, fun _ _ h => .inl h⟩

theorem trans (h : Moves keys live source cache source' cache')
    (h' : Moves keys live source' cache' source'' cache'') : Moves keys live source cache source'' cache'' where
  kept key c hc := h.kept key c (h'.kept key c hc)
  change i v hv := by
    rcases h.change i v hv with hsame | hdead
    . exact h'.change i v hsame
    . exact .inr fun key hkey c hc => hdead key hkey c (h'.kept key c hc)

end Moves

theorem Coherent.moves {source source' : ι → Option ν} {keys : ν → List κ} {holds : ω → ν → Prop} {live : ω → Prop}
    {cache cache' : AssocMap κ ω} (h : Coherent source keys holds live cache)
    (hmoves : Moves keys live source cache source' cache') : Coherent source' keys holds live cache' := by
  intro key c hc hlive
  obtain ⟨i, v, hsource, hkey, hholds⟩ := h key c (hmoves.kept key c hc) hlive
  rcases hmoves.change i v hsource with hsame | hdead
  . exact ⟨i, v, hsame, hkey, hholds⟩
  . exact absurd hlive (hdead key hkey c hc)

end ReadThrough
