import Pro5Android.Graphics.GrallocRuns

/-!
# Mappings that are lost

With the private format in the run, a base still stands for a mapping of its own, but a mapping
may be left without a base: `gralloc_map` clears the bases of a protected handle, and maps the
private plane again each time; `gralloc_free` unmaps nothing of a handle whose first plane is
not mapped.

Results:
* `remap_gralloc_map`, `remap_gralloc_unmap`: what either does to the bases and the mappings.
* `sharing_reach`: what is lost stays lost.
* `bases_held`: what a base stands for, in every run.
* `private_mapping_lost`: how the mapping of a private plane is lost.
-/

namespace Pro5Android.Gralloc

open Lib

/-! ## Planes -/

section Planes

variable (hnd : Handle) (b : ℕ)

theorem mapping_base : Handle.mapping { hnd with base := b } =
    Function.update hnd.mapping .first (mapped b (toSizeT hnd.size)) := by
  funext plane
  cases plane <;> simp [Handle.mapping, Handle.chroma]

theorem mapping_base1 : Handle.mapping { hnd with base1 := b } =
    Function.update hnd.mapping .second (mapped b hnd.chroma) := by
  funext plane
  cases plane <;> simp [Handle.mapping, Handle.chroma]

theorem mapping_base2 : Handle.mapping { hnd with base2 := b } =
    Function.update hnd.mapping .third
      (mapped b (if hnd.format = .exynosYCbCr420SpMPriv then privSize else hnd.chroma)) := by
  funext plane
  cases plane <;> simp [Handle.mapping, Handle.chroma]

end Planes

section Stages

variable {k : Kernel} {w : World} {owner : Place → Option (ℕ × ℕ)} {id : ℕ}
  {lost : ℕ → ℕ → Prop} {f : Plane → Option (ℕ × ℕ)} {len : ℕ}

theorem held_emptied (ho : Held w.maps (place owner id f) lost) (plane : Plane) :
    Held w.maps (place owner id (Function.update f plane none)) lost := by
  refine ho.mono fun p x hp => ?_
  rw [← update_place] at hp
  by_cases hpp : p = (id, plane)
  · rw [hpp, Function.update_self] at hp
    exact absurd hp (by simp)
  · rwa [Function.update_of_ne hpp] at hp

/-- The old mapping of the plane, if it had one, is left alone. -/
theorem mmap_held (hk : k.Sound) (plane : Plane) (len : ℕ) (fd : ℤ)
    (ho : Held w.maps (place owner id f) lost) :
    Held (w.mmap k len fd).2.maps (place owner id
      (Function.update f plane (mapped (addressOf (w.mmap k len fd).1) len))) lost := by
  have hfailed : mapped MAP_FAILED len = none := by simp [mapped]
  simp only [World.mmap]
  split
  · rw [addressOf, hfailed]
    exact held_emptied ho plane
  · cases hr : k.mmap w len fd with
    | error e =>
      simp only [addressOf, hfailed]
      exact held_emptied ho plane
    | ok a =>
      have ha := hk.address hr
      have h := ho.acquire (i := (id, plane)) (v := len) (hk.address_new hr)
      rw [update_place] at h
      simp only [addressOf, mapped, ha, or_self, if_false]
      exact h

theorem munmap_held (plane : Plane) {a : ℕ} (ho : Held w.maps (place owner id f) lost)
    (hf : f plane = mapped a len) :
    Held (w.munmap a len).maps (place owner id (Function.update f plane none)) lost := by
  by_cases hnone : a = 0 ∨ a = MAP_FAILED
  · have hskip : ¬(a ≠ 0 ∧ a ≠ MAP_FAILED ∧ w.maps a = some len) := by
      rintro ⟨h0, hfailed, -⟩
      exact hnone.elim h0 hfailed
    rw [World.munmap, if_neg hskip]
    exact held_emptied ho plane
  · rw [mapped, if_neg hnone] at hf
    have hheld : place owner id f (id, plane) = some (a, len) := (place_self plane).trans hf
    have h := ho.release hheld
    rw [update_place] at h
    rw [not_or] at hnone
    rwa [World.munmap, if_pos ⟨hnone.1, hnone.2, ho.held hheld⟩]

end Stages

/-- The bases stand for what is mapped, and what is lost stays. -/
def Sharing (owner : Place → Option (ℕ × ℕ)) (id : ℕ) (lost : ℕ → ℕ → Prop)
    (r : Handle × World) : Prop :=
  Held r.2.maps (place owner id r.1.mapping) lost

section Maps

variable {k : Kernel} {world : World} {hnd : Handle} {owner : Place → Option (ℕ × ℕ)} {id : ℕ}
  {lost : ℕ → ℕ → Prop}

theorem mmap_error_maps {w w' : World} {len : ℕ} {fd e : ℤ}
    (hr : w.mmap k len fd = (.error e, w')) : w'.maps = w.maps := by
  simp only [World.mmap] at hr
  split at hr
  · exact (Prod.mk.inj hr).2 ▸ rfl
  · cases ha : k.mmap w len fd with
    | error e => simp only [ha, Prod.mk.injEq] at hr; exact hr.2 ▸ rfl
    | ok a => simp [ha] at hr

theorem sharing_mapPrivate (hk : k.Sound) (ho : Sharing owner id lost (hnd, world)) :
    Sharing owner id lost (mapPrivate k world hnd) := by
  rw [mapPrivate]
  split
  · rename_i hformat
    rcases hr : world.mmap k privSize hnd.fd2 with ⟨e | a, w'⟩
    · show Held w'.maps _ lost
      rw [mmap_error_maps hr]
      exact ho
    · have h := mmap_held hk .third privSize hnd.fd2 ho
      rw [hr] at h
      show Held w'.maps (place owner id (Handle.mapping { hnd with base2 := a })) lost
      rw [mapping_base2, if_pos hformat]
      exact h
  · exact ho

theorem sharing_mapSecond (hk : k.Sound) (ho : Sharing owner id lost (hnd, world)) :
    Sharing owner id lost (mapSecond k world hnd hnd.chroma) := by
  rw [mapSecond]
  split
  · show Held _ (place owner id (Handle.mapping { hnd with base1 := _ })) lost
    rw [mapping_base1]
    exact mmap_held hk .second hnd.chroma hnd.fd1 ho
  · exact ho

theorem sharing_mapThird (hk : k.Sound) (ho : Sharing owner id lost (hnd, world)) :
    Sharing owner id lost (mapThird k world hnd hnd.chroma) := by
  rw [mapThird]
  split
  · rename_i hthird
    show Held _ (place owner id (Handle.mapping { hnd with base2 := _ })) lost
    rw [mapping_base2, if_neg hthird.2]
    exact mmap_held hk .third hnd.chroma hnd.fd2 ho
  · exact ho

theorem SameButBases.chroma_eq {hnd' : Handle} (h : SameButBases hnd hnd') :
    hnd'.chroma = hnd.chroma := by
  obtain ⟨b, b1, b2, rfl⟩ := h
  rfl

/-- How `gralloc_map` begins. -/
def Handle.cleared (hnd : Handle) : Handle :=
  if hnd.flags.isProtected || hnd.flags.nozeroed then
    { hnd with base := 0, base1 := 0, base2 := 0 }
  else hnd

theorem mapping_withBases_zero : (hnd.withBases 0 0 0).mapping = fun _ => none :=
  Handle.Unmapped.mapping_eq ⟨rfl, rfl, rfl⟩

theorem held_forgotten {f : Plane → Option (ℕ × ℕ)} {w : World}
    (ho : Held w.maps (place owner id f) lost) :
    Held w.maps (place owner id fun _ => none) lost := by
  refine ho.mono fun p x hp => ?_
  obtain ⟨hpi, hp⟩ := place_none_eq_some.mp hp
  rwa [place, if_neg hpi]

theorem sharing_withBases_zero (ho : Sharing owner id lost (hnd, world)) :
    Sharing owner id lost (hnd.withBases 0 0 0, world) := by
  show Held world.maps (place owner id (hnd.withBases 0 0 0).mapping) lost
  rw [mapping_withBases_zero]
  exact held_forgotten ho

theorem sharing_cleared (ho : Sharing owner id lost (hnd, world)) :
    Sharing owner id lost (hnd.cleared, world) := by
  rw [Handle.cleared]
  split
  · exact sharing_withBases_zero ho
  · exact ho

theorem remap_gralloc_map (hk : k.Sound) (ho : Sharing owner id lost (hnd.cleared, world)) :
    Sharing owner id lost (gralloc_map k world hnd).2 := by
  rw [gralloc_map]
  change Sharing owner id lost (hnd.cleared, world) at ho
  rw [Handle.cleared] at ho
  generalize (if hnd.flags.isProtected || hnd.flags.nozeroed then
      { hnd with base := 0, base1 := 0, base2 := 0 } else hnd) = hnd₀ at ho ⊢
  have hpriv := sharing_mapPrivate hk ho
  have hchroma := (remaps_mapPrivate k world hnd₀).same.chroma_eq
  dsimp only
  generalize mapPrivate k world hnd₀ = r₁ at hpriv hchroma ⊢
  obtain ⟨h₁, w₁⟩ := r₁
  dsimp only at hchroma ⊢
  rw [← hchroma]
  split
  · exact hpriv
  split
  · have hfirst := mmap_held hk .first (toSizeT h₁.size) h₁.fd hpriv
    rcases hr : w₁.mmap k (toSizeT h₁.size) h₁.fd with ⟨e | a, w₂⟩
    · show Held w₂.maps _ lost
      rw [mmap_error_maps hr]
      exact hpriv
    · rw [hr] at hfirst
      have hbase : Sharing owner id lost ({ h₁ with base := a }, w₂) := by
        show Held w₂.maps (place owner id (Handle.mapping { h₁ with base := a })) lost
        rw [mapping_base]
        exact hfirst
      have hsecond := sharing_mapSecond hk hbase
      have hchroma₂ := (remaps_mapSecond k w₂ { h₁ with base := a } h₁.chroma).same.chroma_eq
      dsimp only
      change Sharing owner id lost (mapSecond k w₂ { h₁ with base := a } h₁.chroma) at hsecond
      generalize mapSecond k w₂ { h₁ with base := a } h₁.chroma = r₂ at hsecond hchroma₂ ⊢
      obtain ⟨h₂, w₃⟩ := r₂
      have hthird := sharing_mapThird hk hsecond
      rwa [show h₂.chroma = h₁.chroma from hchroma₂] at hthird
  · exact hpriv

theorem sharing_unmapThird (hnd : Handle)
    (hformat : hnd.base2 ≠ 0 → hnd.format ≠ .exynosYCbCr420SpMPriv)
    (ho : Sharing owner id lost (hnd, world)) :
    Sharing owner id lost (unmapThird world hnd hnd.chroma) := by
  rw [unmapThird]
  split
  · rename_i h
    have hlen : hnd.mapping .third = mapped hnd.base2 hnd.chroma := by
      simp [Handle.mapping, hformat h.2]
    have hnone : mapped 0 (if hnd.format = .exynosYCbCr420SpMPriv then privSize
        else hnd.chroma) = none := by simp [mapped]
    show Held _ (place owner id (Handle.mapping { hnd with base2 := 0 })) lost
    rw [mapping_base2, hnone]
    exact munmap_held .third ho hlen
  · exact ho

theorem sharing_unmapSecond (hnd : Handle)
    (hformat : hnd.base2 ≠ 0 → hnd.format ≠ .exynosYCbCr420SpMPriv)
    (ho : Sharing owner id lost (hnd, world)) :
    Sharing owner id lost (unmapSecond world hnd hnd.chroma) := by
  rw [unmapSecond]
  split
  · split
    · exact ho
    · have hnone : mapped 0 hnd.chroma = none := by simp [mapped]
      have hbase : Sharing owner id lost
          ({ hnd with base1 := 0 }, world.munmap hnd.base1 hnd.chroma) := by
        show Held _ (place owner id (Handle.mapping { hnd with base1 := 0 })) lost
        rw [mapping_base1, hnone]
        exact munmap_held .second ho rfl
      exact sharing_unmapThird { hnd with base1 := 0 } hformat hbase
  · exact sharing_unmapThird hnd hformat ho

theorem remap_gralloc_unmap (ho : Sharing owner id lost (hnd, world)) :
    Sharing owner id lost (gralloc_unmap world hnd) := by
  have hpriv : Sharing owner id lost (unmapPrivate world hnd) ∧
      ((unmapPrivate world hnd).1.base2 ≠ 0 →
        (unmapPrivate world hnd).1.format ≠ .exynosYCbCr420SpMPriv) ∧
      (unmapPrivate world hnd).1.chroma = hnd.chroma := by
    rw [unmapPrivate]
    split
    · rename_i hformat
      have hlen : hnd.mapping .third = mapped hnd.base2 privSize := by
        simp [Handle.mapping, hformat]
      have hnone : mapped 0 privSize = none := by simp [mapped]
      refine ⟨?_, fun h => absurd rfl h, rfl⟩
      show Held _ (place owner id (Handle.mapping { hnd with base2 := 0 })) lost
      rw [mapping_base2, if_pos hformat, hnone]
      exact munmap_held .third ho hlen
    · rename_i hformat
      exact ⟨ho, fun _ => hformat, rfl⟩
  rw [gralloc_unmap]
  generalize unmapPrivate world hnd = r₁ at hpriv ⊢
  obtain ⟨h₁, w₁⟩ := r₁
  obtain ⟨ho₁, hformat, hchroma⟩ := hpriv
  dsimp only at hformat hchroma ⊢
  rw [← hchroma]
  split
  · exact ho₁
  · have hnone : mapped 0 (toSizeT h₁.size) = none := by simp [mapped]
    have hbase : Sharing owner id lost
        ({ h₁ with base := 0 }, w₁.munmap h₁.base (toSizeT h₁.size)) := by
      show Held _ (place owner id (Handle.mapping { h₁ with base := 0 })) lost
      rw [mapping_base, hnone]
      exact munmap_held .first ho₁ rfl
    exact sharing_unmapSecond { h₁ with base := 0 } hformat hbase

end Maps

/-! ## Runs -/

structure Shares (lost : ℕ → ℕ → Prop) (s : State) : Prop where
  inv : Inv s
  mappings : Held s.world.maps (s.held Handle.mapping) lost

section Runs

variable {k : Kernel} {afbc : ℤ} {s : State} {id : ℕ} {hnd : Handle} {lost : ℕ → ℕ → Prop}

theorem shares_initial : Shares (fun _ _ => False) State.initial := ⟨inv_initial, Held.empty⟩

theorem Shares.at_place (hs : Shares lost s) (h : s.handles id = some hnd) :
    Sharing (s.held Handle.mapping) id lost (hnd, s.world) := by
  show Held s.world.maps (place (s.held Handle.mapping) id hnd.mapping) lost
  rw [held_of_alive h]
  exact hs.mappings

theorem Sharing.put {r : Handle × World} (hr : Sharing (s.held Handle.mapping) id lost r) :
    Held (s.put id r).world.maps ((s.put id r).held Handle.mapping) lost := by
  show Held r.2.maps (State.held ⟨r.2, Function.update s.handles id (some r.1), s.next⟩ _) lost
  rw [held_insert]
  exact hr

theorem Shares.unmapped (hs : Shares lost s) (h : s.handles id = some hnd) :
    ∃ f, Held (unmappedWorld s.world hnd).maps (place (s.held Handle.mapping) id f) lost := by
  rw [unmappedWorld]
  split
  · exact ⟨_, remap_gralloc_unmap (hs.at_place h)⟩
  · exact ⟨_, hs.at_place h⟩

theorem Shares.step (hk : k.Sound) (hs : Shares lost s) {op : Op} {s' : State}
    (hstep : StepsTo k s op s') : Shares lost s' := by
  refine ⟨hstep.inv hs.inv, ?_⟩
  cases hstep with
  | same => exact hs.mappings
  | refused hmaps ho => exact hmaps ▸ hs.mappings
  | alloc hnew hformat hmaps ho =>
    rw [held_insert, hnew.unmapped.mapping_eq, place_eq_self (hs.inv.empty Handle.mapping)]
    exact hmaps ▸ hs.mappings
  | keep h => exact (hs.at_place h).put
  | map h hbase => exact (remap_gralloc_map hk (sharing_cleared (hs.at_place h))).put
  | unmap h => exact (remap_gralloc_unmap (hs.at_place h)).put
  | free h hmaps hinv =>
    obtain ⟨f, ho⟩ := hs.unmapped h
    show Held _ (State.held ⟨_, Function.update s.handles _ none, s.next⟩ Handle.mapping) lost
    rw [held_remove, hmaps]
    exact held_forgotten ho

/-- What is lost stays lost. -/
theorem sharing_reach (hk : k.Sound) {s₀ : State} (hs : Shares lost s₀)
    (h : (allocator k afbc).Reach System.AnyInput s₀ s) : Shares lost s :=
  reach_invariant hk hs Shares.inv (fun _ hs hstep => hs.step hk hstep) h

end Runs

/-! ## The private plane -/

/-- The handles that `gralloc_map` clears. -/
def Handle.Flagged (hnd : Handle) : Prop := (hnd.flags.isProtected || hnd.flags.nozeroed) = true

section Private

variable {k : Kernel} {afbc : ℤ} {s : State} {id : ℕ} {hnd : Handle} {lost : ℕ → ℕ → Prop}
  {world : World}

theorem SameButBases.flags_eq {hnd' : Handle} (h : SameButBases hnd hnd') :
    hnd'.flags = hnd.flags := by
  obtain ⟨b, b1, b2, rfl⟩ := h
  rfl

theorem mapPrivate_flags (k : Kernel) (world : World) (hnd : Handle) :
    (mapPrivate k world hnd).1.flags = hnd.flags :=
  (remaps_mapPrivate k world hnd).same.flags_eq

theorem mapPrivate_base (k : Kernel) (world : World) (hnd : Handle) :
    (mapPrivate k world hnd).1.base = hnd.base := by
  rw [mapPrivate]
  split
  · split <;> rfl
  · rfl

/-- Only the private plane of such a handle is mapped, behind cleared bases. -/
theorem gralloc_map_flagged (hflags : hnd.Flagged) :
    gralloc_map k world hnd = (0, mapPrivate k world (hnd.withBases 0 0 0)) := by
  have hflags' : (hnd.flags.isProtected || hnd.flags.nozeroed) = true := hflags
  have hzero : ({ hnd with base := 0, base1 := 0, base2 := 0 } : Handle) = hnd.withBases 0 0 0 :=
    rfl
  have hkept : (mapPrivate k world (hnd.withBases 0 0 0)).1.flags = hnd.flags :=
    mapPrivate_flags k world (hnd.withBases 0 0 0)
  have hfirst : (!hnd.flags.isProtected && !hnd.flags.nozeroed) = false := by
    rw [← Bool.not_or, hflags', Bool.not_true]
  rw [gralloc_map, if_pos hflags', hzero]
  generalize mapPrivate k world (hnd.withBases 0 0 0) = r at hkept ⊢
  obtain ⟨h₁, w₁⟩ := r
  dsimp only at hkept ⊢
  rw [hkept, hfirst]
  split
  · rfl
  · rfl

theorem gralloc_unmap_base (hbase : hnd.base = 0) : (gralloc_unmap world hnd).1.base = 0 := by
  have hpriv : (unmapPrivate world hnd).1.base = 0 := by
    rw [unmapPrivate]
    split <;> exact hbase
  rw [gralloc_unmap]
  generalize unmapPrivate world hnd = r at hpriv ⊢
  obtain ⟨h₁, w₁⟩ := r
  dsimp only at hpriv ⊢
  rw [if_pos hpriv]
  exact hpriv

def Handle.Unbased (hnd : Handle) : Prop := hnd.Flagged → hnd.base = 0

/-- The first plane of a flagged handle is never mapped. -/
structure Unbased (s : State) : Prop where
  inv : Inv s
  handles : ∀ {id hnd}, s.handles id = some hnd → hnd.Unbased

theorem SameButBases.flagged {hnd' : Handle} (h : SameButBases hnd hnd') (hf : hnd'.Flagged) :
    hnd.Flagged := by
  obtain ⟨b, b1, b2, rfl⟩ := h
  exact hf

theorem unbased_gralloc_map (k : Kernel) (world : World) (hnd : Handle) :
    (gralloc_map k world hnd).2.1.Unbased := by
  intro hflags
  rw [gralloc_map_flagged ((gralloc_map_bases k world hnd).same.flagged hflags), mapPrivate_base]
  rfl

theorem Handle.Unbased.unmap (h : hnd.Unbased) : (gralloc_unmap world hnd).1.Unbased :=
  fun hflags => gralloc_unmap_base (h ((gralloc_unmap_bases world hnd).same.flagged hflags))

theorem Unbased.step {op : Op} {s' : State} (hs : Unbased s) (hstep : StepsTo k s op s') :
    Unbased s' := by
  refine ⟨hstep.inv hs.inv, ?_⟩
  cases hstep with
  | same => exact hs.handles
  | refused hmaps ho => exact hs.handles
  | alloc hnew hformat hmaps ho =>
    exact forall_update hs.handles fun _ h => Option.some.inj h ▸ fun _ => hnew.unmapped.1
  | keep h => exact forall_update hs.handles fun _ h' => Option.some.inj h' ▸ hs.handles h
  | map h hbase =>
    exact forall_update hs.handles fun _ h' =>
      Option.some.inj h' ▸ unbased_gralloc_map k s.world _
  | unmap h =>
    exact forall_update hs.handles fun _ h' => Option.some.inj h' ▸ (hs.handles h).unmap
  | free h hmaps hinv => exact forall_update hs.handles fun _ h' => absurd h' (by simp)

theorem unbased_reach (hk : k.Sound)
    (h : (allocator k afbc).Reach System.AnyInput State.initial s) : Unbased s :=
  reach_invariant hk ⟨inv_initial, nofun⟩ Unbased.inv (fun _ hs hstep => hs.step hstep) h

theorem next_lock (hid : s.handles id = some hnd) :
    (allocator k afbc).next s (.lock id) = s.put id (gralloc_lock k s.world hnd).2.2 := by
  show (s.step k afbc (.lock id)).getD s = _
  simp only [State.step, hid, Option.getD_some]

/-- The calls on the handle `id`. -/
def Op.On (id : ℕ) : Op → Prop
  | .alloc _ _ _ _ => False
  | .register i | .unregister i | .lock i | .free i => i = id

/-- A call on another handle leaves `id` as it is. -/
theorem step_handles (hs : Inv s) (hid : s.handles id = some hnd) {op : Op} (hop : ¬op.On id)
    {s' : State} (hstep : s.step k afbc op = some s') : s'.handles id = some hnd := by
  have hput {i : ℕ} (hi : ¬i = id) (o : Option Handle) :
      Function.update s.handles i o id = some hnd :=
    (Function.update_of_ne (Ne.symm hi) _ _).trans hid
  cases op with
  | alloc w h format usage =>
    obtain ⟨r, -, rfl⟩ := Option.map_eq_some_iff.mp hstep
    cases r.1.hnd with
    | none => exact hid
    | some new => exact hput (hs.next_le hid).ne' _
  | free i =>
    rw [State.step] at hstep
    cases hi : s.handles i with
    | none =>
      rw [hi] at hstep
      exact Option.some.inj hstep ▸ hid
    | some other =>
      rw [hi] at hstep
      obtain ⟨r, -, rfl⟩ := Option.map_eq_some_iff.mp hstep
      split_ifs
      · exact hput hop none
      · exact hid
  | register i | unregister i | lock i =>
    rw [State.step] at hstep
    cases hi : s.handles i with
    | none =>
      rw [hi] at hstep
      exact Option.some.inj hstep ▸ hid
    | some other =>
      rw [hi] at hstep
      exact Option.some.inj hstep ▸ hput hop _

/-- Whatever is called on other handles, `id` is as it was. -/
theorem reach_handles (hk : k.Sound) (hs : Inv s) (hid : s.handles id = some hnd) {s' : State}
    (h : (allocator k afbc).Reach (fun _ op => ¬op.On id) s s') : s'.handles id = some hnd := by
  refine (System.Reach.invariant (fun s => Inv s ∧ s.handles id = some hnd) ⟨hs, hid⟩ ?_ h).2
  rintro s op hlegal hop ⟨hs, hid⟩
  obtain ⟨s', hstep, hto⟩ := step_cases (k := k) hk hs hlegal
  have hnext : (allocator k afbc).next s op = s' := by
    show (s.step k afbc op).getD s = s'
    rw [hstep, Option.getD_some]
  rw [hnext]
  exact ⟨hto.inv hs, step_handles hs hid hop hstep⟩

theorem lock_flagged (hmade : hnd.Made) (hlock : hnd.frameworkFormat ≠ .yCbCr420_888)
    (hflags : hnd.Flagged) (hbase : hnd.base = 0) :
    (gralloc_lock k world hnd).2.2 = mapPrivate k world (hnd.withBases 0 0 0) := by
  have hvalid : ¬hnd.validate < 0 := by rw [hmade.valid]; decide
  rw [gralloc_lock, if_neg hvalid, if_neg hlock]
  dsimp only
  rw [if_pos hbase, gralloc_map_flagged hflags]

theorem mapPrivate_handle {a : ℕ} (hformat : hnd.format = .exynosYCbCr420SpMPriv)
    (hmmap : k.mmap world privSize hnd.fd2 = .ok a) :
    (mapPrivate k world hnd).1 = { hnd with base2 := a } := by
  have hpos : ¬privSize = 0 := by decide
  simp only [mapPrivate, if_pos hformat, World.mmap, if_neg hpos, hmmap]

/-- The private plane of a handle without other mappings is lost by the next lock and when the
    handle is freed. -/
theorem Shares.lose (hk : k.Sound) (afbc : ℤ) (hs : Shares lost s) (hid : s.handles id = some hnd)
    (hformat : hnd.format = .exynosYCbCr420SpMPriv) (hflags : hnd.Flagged) (hbase : hnd.base = 0)
    (hlock : hnd.frameworkFormat ≠ .yCbCr420_888) {a : ℕ} (ha : hnd.base2 = a) (ha0 : a ≠ 0)
    (hfailed : a ≠ MAP_FAILED) {op : Op} (hop : op = .lock id ∨ op = .free id) :
    Shares (fun k v => lost k v ∨ (k = a ∧ v = privSize)) ((allocator k afbc).next s op) := by
  have howner : s.held Handle.mapping (id, .third) = some (a, privSize) := by
    simp [State.held, hid, Handle.mapping, hformat, ha, mapped, ha0, hfailed]
  have hlose := hs.mappings.lose howner (fun _ _ hp => (place_none_eq_some.mp hp).2)
    (place_self .third)
  rcases hop with rfl | rfl
  · rw [next_lock hid]
    refine ⟨hs.inv.put hid (remaps_lock k s.world hnd), ?_⟩
    rw [lock_flagged (hs.inv.made hid) hlock hflags hbase]
    refine Sharing.put (sharing_mapPrivate hk ?_)
    show Held s.world.maps (place _ id (hnd.withBases 0 0 0).mapping) _
    rw [mapping_withBases_zero]
    exact hlose
  · obtain ⟨w', hfree, hmaps, hinv⟩ := hs.inv.free hid
    have hnext : (allocator k afbc).next s (.free id) =
        { s with world := w', handles := Function.update s.handles id none } := by
      show (s.step k afbc (.free id)).getD s = _
      simp only [State.step, hid, hfree, Option.map_some, if_true, Option.getD_some]
    rw [hnext]
    refine ⟨hinv, ?_⟩
    show Held w'.maps (State.held ⟨w', Function.update s.handles id none, s.next⟩ _) _
    rw [held_remove, hmaps, unmappedWorld, if_neg (by simp [hbase])]
    exact hlose

end Private

/-! ## What a run keeps and loses -/

/-- A protected buffer of the private format, locked twice. -/
def privateOps : List Op :=
  [.alloc 16 16 .exynosYCbCr420SpMPriv { sampleUsage with isProtected := true }, .lock 0]

def privateState : State := (allocator sampleKernel 0).after State.initial privateOps

theorem private_reach :
    (allocator sampleKernel 0).Reach System.AnyInput State.initial privateState :=
  System.reach_after ⟨sample_fits _ _ _, trivial, trivial, trivial, trivial⟩

/-- In every run each base, but 0 and the mark of a failure, stands for a mapping of the length
    of its plane, and no two for the same. -/
theorem bases_held {k : Kernel} {afbc : ℤ} {s : State} (hk : k.Sound)
    (h : (allocator k afbc).Reach System.AnyInput State.initial s) :
    Held s.world.maps (s.held Handle.mapping) fun _ _ => False :=
  (sharing_reach hk shares_initial h).mappings

theorem bases_held_sample :
    privateState.held Handle.mapping (0, .third) = some (16384, privSize) ∧
      privateState.world.maps 16384 = some privSize :=
  have hbase : privateState.held Handle.mapping (0, .third) = some (16384, privSize) := by decide
  ⟨hbase, (bases_held sampleKernel_sound private_reach).held hbase⟩

/-- A lock maps the private plane of a protected handle. Whatever is then called on other
    handles, the next lock of this one or its `gralloc_free` leaves this mapping without a base:
    it is there in every state that comes after. -/
theorem private_mapping_lost {k : Kernel} {afbc : ℤ} {s s₁ s' : State} {id : ℕ} {hnd : Handle}
    {a : ℕ} {op : Op} (hk : k.Sound)
    (h : (allocator k afbc).Reach System.AnyInput State.initial s)
    (hid : s.handles id = some hnd) (hformat : hnd.format = .exynosYCbCr420SpMPriv)
    (hflags : hnd.Flagged) (hlock : hnd.frameworkFormat ≠ .yCbCr420_888)
    (hmmap : k.mmap s.world privSize hnd.fd2 = .ok a)
    (hothers : (allocator k afbc).Reach (fun _ op => ¬op.On id)
      ((allocator k afbc).next s (.lock id)) s₁)
    (hop : op = .lock id ∨ op = .free id)
    (hlater : (allocator k afbc).Reach System.AnyInput ((allocator k afbc).next s₁ op) s') :
    s'.world.maps a = some privSize := by
  have hmade := (inv_reach hk h).made hid
  have hbase := (unbased_reach hk h).handles hid hflags
  have ha := hk.address hmmap
  have h₁ : (allocator k afbc).Reach System.AnyInput State.initial
      ((allocator k afbc).next s (.lock id)) := h.tail ⟨.lock id, trivial, trivial, rfl⟩
  have hid₁ : ((allocator k afbc).next s (.lock id)).handles id =
      some (hnd.withBases 0 0 a) := by
    have hput : (s.put id (mapPrivate k s.world (hnd.withBases 0 0 0))).handles id =
        some (mapPrivate k s.world (hnd.withBases 0 0 0)).1 := Function.update_self _ _ _
    have hmapped : (mapPrivate k s.world (hnd.withBases 0 0 0)).1 = hnd.withBases 0 0 a :=
      mapPrivate_handle hformat hmmap
    rw [next_lock hid, lock_flagged hmade hlock hflags hbase, hput, hmapped]
  have hany : (allocator k afbc).Reach System.AnyInput
      ((allocator k afbc).next s (.lock id)) s₁ :=
    hothers.lift (fun s => s) fun _ _ ⟨op, hlegal, _, hnext⟩ => ⟨op, hlegal, trivial, hnext⟩
  have hs₁ := sharing_reach hk (sharing_reach hk shares_initial h₁) hany
  have hkept := reach_handles hk (inv_reach hk h₁) hid₁ hothers
  have hs₂ := hs₁.lose hk afbc hkept hformat hflags rfl hlock rfl ha.1 ha.2 hop
  exact (sharing_reach hk hs₂ hlater).mappings.kept (.inr ⟨rfl, rfl⟩)

/-- Another buffer is allocated and locked. -/
def otherOps : List Op := [.alloc 16 16 .yv12 sampleUsage, .lock 1]

theorem private_mapping_lost_sample :
    ((allocator sampleKernel 0).next ((allocator sampleKernel 0).after
      ((allocator sampleKernel 0).next privateState (.lock 0)) otherOps) (.free 0)).world.maps
        20480 = some privSize :=
  have hid : privateState.handles 0 = some ((Handle.make 0 1 2 0 512
      { sampleUsage with isProtected := true } 16 16 .exynosYCbCr420SpMPriv
      .exynosYCbCr420SpMPriv 16 16).withBases 0 0 16384) := by decide
  have hone : ¬(1 : ℕ) = 0 := by decide
  have hallowed : (allocator sampleKernel 0).Allowed (fun _ op => ¬op.On 0)
      ((allocator sampleKernel 0).next privateState (.lock 0)) otherOps :=
    ⟨sample_fits _ _ _, id, trivial, hone, trivial⟩
  private_mapping_lost sampleKernel_sound private_reach hid rfl rfl (by decide)
    (by decide) (System.reach_after hallowed) (.inr rfl) .refl

end Pro5Android.Gralloc
