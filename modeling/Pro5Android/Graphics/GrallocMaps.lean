import Pro5Android.Graphics.GrallocBuffers

/-!
# The mappings of the mapper

A handle is mapped plane by plane, and `gralloc_unmap` has nothing to go by but the bases of the
handle: a plane whose base is 0 or `MAP_FAILED` has no mapping. The private plane of
`EXYNOS_YCbCr_420_SP_M_PRIV` is mapped before the first one, also where the first one never is
or fails; the last two results are about the other formats.

Results:
* `mmap_place`, `munmap_place`: the kernel's part.
* `gralloc_map_bases`, `gralloc_unmap_bases`: only bases and mappings change.
* `gralloc_map_spec`, `gralloc_unmap_spec`: what mapping and unmapping leave.
-/

namespace Pro5Android.Gralloc

open Lib

/-! ## Bases -/

/-- A base, as `gralloc_unmap` reads it. -/
def mapped (a len : ℕ) : Option (ℕ × ℕ) :=
  if a = 0 ∨ a = MAP_FAILED then none else some (a, len)

namespace Handle

def withBases (hnd : Handle) (b b1 b2 : ℕ) : Handle :=
  { hnd with base := b, base1 := b1, base2 := b2 }

/-- What is mapped for a plane, by the bases of the handle. -/
def mapping (hnd : Handle) : Plane → Option (ℕ × ℕ)
  | .first => mapped hnd.base (toSizeT hnd.size)
  | .second => mapped hnd.base1 hnd.chroma
  | .third =>
    mapped hnd.base2 (if hnd.format = .exynosYCbCr420SpMPriv then privSize else hnd.chroma)

/-- With the first plane, those behind it that have a buffer are mapped, and no others. -/
structure Consistent (hnd : Handle) : Prop where
  first : hnd.base ≠ MAP_FAILED
  unmapped : hnd.base = 0 → hnd.Unmapped
  second : hnd.base ≠ 0 → (hnd.base1 = 0 ↔ hnd.fd1 < 0)
  third : hnd.base ≠ 0 → (hnd.base2 = 0 ↔ hnd.fd2 < 0)

variable {hnd : Handle}

theorem Unmapped.consistent (h : hnd.Unmapped) : hnd.Consistent :=
  ⟨by rw [h.1]; decide, fun _ => h, fun hb => absurd h.1 hb, fun hb => absurd h.1 hb⟩

theorem Unmapped.mapping_eq (h : hnd.Unmapped) : hnd.mapping = fun _ => none := by
  obtain ⟨h0, h1, h2⟩ := h
  funext plane
  cases plane <;> simp [mapping, mapped, h0, h1, h2]

theorem Unmapped.withBases_eq (h : hnd.Unmapped) : hnd.withBases 0 0 0 = hnd := by
  obtain ⟨h0, h1, h2⟩ := h
  cases hnd
  simp_all [withBases]

end Handle

/-! ## The kernel's part -/

section Kernel

variable {k : Kernel} {w : World} {owner : Place → Option (ℕ × ℕ)} {id : ℕ}
  {f : Plane → Option (ℕ × ℕ)} {len : ℕ}

theorem mmap_fds (k : Kernel) (w : World) (len : ℕ) (fd : ℤ) : (w.mmap k len fd).2.fds = w.fds := by
  simp only [World.mmap]
  split
  · rfl
  · split <;> rfl

theorem munmap_fds (w : World) (a len : ℕ) : (w.munmap a len).fds = w.fds := by
  simp only [World.munmap]
  split <;> rfl

/-- A mapping comes to an empty plane, also where the request fails. -/
theorem mmap_place (hk : k.Sound) (plane : Plane) (len : ℕ) (fd : ℤ)
    (ho : Owned w.maps (place owner id f)) (hempty : f plane = none) :
    addressOf (w.mmap k len fd).1 ≠ 0 ∧
      Owned (w.mmap k len fd).2.maps (place owner id
        (Function.update f plane (mapped (addressOf (w.mmap k len fd).1) len))) := by
  have hfailed : mapped MAP_FAILED len = f plane := by simp [mapped, hempty]
  simp only [World.mmap]
  split
  · rw [addressOf, hfailed, Function.update_eq_self]
    exact ⟨by decide, ho⟩
  · cases hr : k.mmap w len fd with
    | error e =>
      simp only [addressOf, hfailed, Function.update_eq_self]
      exact ⟨by decide, ho⟩
    | ok a =>
      have ha := hk.address hr
      have h := ho.acquire (v := len) ((place_self plane).trans hempty) (hk.address_new hr)
      rw [update_place] at h
      simp only [addressOf, mapped, ha, or_self, if_false]
      exact ⟨ha.1, h⟩

theorem mmap_ne_failed (hk : k.Sound) {fd : ℤ} {a : ℕ} {w' : World}
    (hr : w.mmap k len fd = (.ok a, w')) : a ≠ MAP_FAILED := by
  simp only [World.mmap] at hr
  split at hr
  · simp at hr
  · cases ha : k.mmap w len fd with
    | error e => simp [ha] at hr
    | ok b =>
      simp only [ha, Prod.mk.injEq, Except.ok.injEq] at hr
      exact hr.1 ▸ (hk.address ha).2

theorem munmap_place (plane : Plane) {a : ℕ} (ho : Owned w.maps (place owner id f)) (ha : a ≠ 0)
    (hf : f plane = mapped a len) :
    Owned (w.munmap a len).maps (place owner id (Function.update f plane none)) := by
  by_cases hfailed : a = MAP_FAILED
  · rw [mapped, if_pos (.inr hfailed)] at hf
    rw [World.munmap, if_neg (fun h => h.2.1 hfailed), ← hf, Function.update_eq_self]
    exact ho
  · rw [mapped, if_neg (by simp [ha, hfailed])] at hf
    have hheld : place owner id f (id, plane) = some (a, len) := (place_self plane).trans hf
    have h := ho.release hheld
    rw [update_place] at h
    rwa [World.munmap, if_pos ⟨ha, hfailed, ho.held hheld⟩]

end Kernel

/-! ## What changes -/

/-- The handle but for its bases. -/
def SameButBases (hnd hnd' : Handle) : Prop := ∃ b b1 b2, hnd' = hnd.withBases b b1 b2

theorem SameButBases.refl (hnd : Handle) : SameButBases hnd hnd :=
  ⟨hnd.base, hnd.base1, hnd.base2, rfl⟩

theorem SameButBases.trans {h₁ h₂ h₃ : Handle} (h : SameButBases h₁ h₂) (h' : SameButBases h₂ h₃) :
    SameButBases h₁ h₃ := by
  obtain ⟨b, b1, b2, rfl⟩ := h
  obtain ⟨c, c1, c2, rfl⟩ := h'
  exact ⟨c, c1, c2, rfl⟩

/-- Bases and mappings may change, and no descriptor. -/
structure Remaps (hnd : Handle) (world : World) (r : Handle × World) : Prop where
  same : SameButBases hnd r.1
  fds_eq : r.2.fds = world.fds

section Bases

variable (k : Kernel) (world : World) (hnd : Handle) (chroma : ℕ)

theorem Remaps.trans {hnd : Handle} {world : World} {r r' : Handle × World}
    (h : Remaps hnd world r) (h' : Remaps r.1 r.2 r') : Remaps hnd world r' :=
  ⟨h.same.trans h'.same, h'.fds_eq.trans h.fds_eq⟩

theorem remaps_refl : Remaps hnd world (hnd, world) := ⟨.refl hnd, rfl⟩

theorem remaps_mapPrivate : Remaps hnd world (mapPrivate k world hnd) := by
  have hfds := mmap_fds k world privSize hnd.fd2
  rw [mapPrivate]
  split
  · rcases hr : world.mmap k privSize hnd.fd2 with ⟨e | a, w'⟩
    · rw [hr] at hfds
      exact ⟨.refl hnd, hfds⟩
    · rw [hr] at hfds
      exact ⟨⟨hnd.base, hnd.base1, a, rfl⟩, hfds⟩
  · exact remaps_refl world hnd

theorem remaps_mapSecond : Remaps hnd world (mapSecond k world hnd chroma) := by
  rw [mapSecond]
  split
  · exact ⟨⟨hnd.base, _, hnd.base2, rfl⟩, mmap_fds k world chroma hnd.fd1⟩
  · exact remaps_refl world hnd

theorem remaps_mapThird : Remaps hnd world (mapThird k world hnd chroma) := by
  rw [mapThird]
  split
  · exact ⟨⟨hnd.base, hnd.base1, _, rfl⟩, mmap_fds k world chroma hnd.fd2⟩
  · exact remaps_refl world hnd

theorem gralloc_map_bases : Remaps hnd world (gralloc_map k world hnd).2 := by
  rw [gralloc_map]
  have hzero : SameButBases hnd (if hnd.flags.isProtected || hnd.flags.nozeroed then
      { hnd with base := 0, base1 := 0, base2 := 0 } else hnd) := by
    split
    · exact ⟨0, 0, 0, rfl⟩
    · exact .refl hnd
  generalize (if hnd.flags.isProtected || hnd.flags.nozeroed then
      { hnd with base := 0, base1 := 0, base2 := 0 } else hnd) = hnd₀ at hzero ⊢
  have hpriv : Remaps hnd world (mapPrivate k world hnd₀) :=
    Remaps.trans (r := (hnd₀, world)) ⟨hzero, rfl⟩ (remaps_mapPrivate k world hnd₀)
  dsimp only
  generalize mapPrivate k world hnd₀ = r₁ at hpriv ⊢
  obtain ⟨h₁, w₁⟩ := r₁
  dsimp only
  split
  · exact hpriv
  split
  · have hfds := mmap_fds k w₁ (toSizeT h₁.size) h₁.fd
    rcases hr : w₁.mmap k (toSizeT h₁.size) h₁.fd with ⟨e | a, w₂⟩
    · rw [hr] at hfds
      exact hpriv.trans ⟨.refl h₁, hfds⟩
    · rw [hr] at hfds
      have hbase : Remaps h₁ w₁ ({ h₁ with base := a }, w₂) :=
        ⟨⟨a, h₁.base1, h₁.base2, rfl⟩, hfds⟩
      exact hpriv.trans (hbase.trans ((remaps_mapSecond k w₂ _ _).trans
        (remaps_mapThird k _ _ _)))
  · exact hpriv

theorem remaps_unmapThird : Remaps hnd world (unmapThird world hnd chroma) := by
  rw [unmapThird]
  split
  · exact ⟨⟨hnd.base, hnd.base1, 0, rfl⟩, munmap_fds world hnd.base2 chroma⟩
  · exact remaps_refl world hnd

theorem remaps_unmapSecond : Remaps hnd world (unmapSecond world hnd chroma) := by
  rw [unmapSecond]
  split
  · split
    · exact remaps_refl world hnd
    · have hbase : Remaps hnd world ({ hnd with base1 := 0 }, world.munmap hnd.base1 chroma) :=
        ⟨⟨hnd.base, 0, hnd.base2, rfl⟩, munmap_fds world hnd.base1 chroma⟩
      exact hbase.trans (remaps_unmapThird _ _ chroma)
  · exact remaps_unmapThird world hnd chroma

theorem gralloc_unmap_bases : Remaps hnd world (gralloc_unmap world hnd) := by
  have hpriv : Remaps hnd world (unmapPrivate world hnd) := by
    rw [unmapPrivate]
    split
    · exact ⟨⟨hnd.base, hnd.base1, 0, rfl⟩, munmap_fds world hnd.base2 privSize⟩
    · exact remaps_refl world hnd
  rw [gralloc_unmap]
  generalize unmapPrivate world hnd = r₁ at hpriv ⊢
  obtain ⟨h₁, w₁⟩ := r₁
  dsimp only
  split
  · exact hpriv
  · have hbase : Remaps h₁ w₁ ({ h₁ with base := 0 }, w₁.munmap h₁.base (toSizeT h₁.size)) :=
      ⟨⟨0, h₁.base1, h₁.base2, rfl⟩, munmap_fds w₁ h₁.base (toSizeT h₁.size)⟩
    exact hpriv.trans (hbase.trans (remaps_unmapSecond _ _ _))

end Bases

/-! ## Mapping and unmapping -/

section Map

variable {k : Kernel} {world : World} {hnd : Handle} {owner : Place → Option (ℕ × ℕ)} {id : ℕ}
  {f : Plane → Option (ℕ × ℕ)} {chroma : ℕ}

theorem mapSecond_spec (hk : k.Sound) (hnd : Handle) (chroma : ℕ)
    (ho : Owned world.maps (place owner id f))
    (hempty : f .second = none) (hbase : hnd.base1 = 0) :
    ∃ b1, (mapSecond k world hnd chroma).1 = { hnd with base1 := b1 } ∧
      (b1 = 0 ↔ hnd.fd1 < 0) ∧ Owned (mapSecond k world hnd chroma).2.maps
        (place owner id (Function.update f .second (mapped b1 chroma))) := by
  rw [mapSecond]
  split
  · rename_i hfd
    obtain ⟨ha, ho'⟩ := mmap_place hk .second chroma hnd.fd1 ho hempty
    exact ⟨_, rfl, by simp [ha, hfd], ho'⟩
  · rename_i hfd
    have hnone : mapped 0 chroma = f .second := by simp [mapped, hempty]
    refine ⟨0, by rw [← hbase], by simpa using hfd, ?_⟩
    rwa [hnone, Function.update_eq_self]

theorem mapThird_spec (hk : k.Sound) (hnd : Handle) (chroma : ℕ)
    (ho : Owned world.maps (place owner id f))
    (hempty : f .third = none) (hbase : hnd.base2 = 0)
    (hformat : hnd.format ≠ .exynosYCbCr420SpMPriv) :
    ∃ b2, (mapThird k world hnd chroma).1 = { hnd with base2 := b2 } ∧
      (b2 = 0 ↔ hnd.fd2 < 0) ∧ Owned (mapThird k world hnd chroma).2.maps
        (place owner id (Function.update f .third (mapped b2 chroma))) := by
  rw [mapThird]
  split
  · rename_i hfd
    obtain ⟨ha, ho'⟩ := mmap_place hk .third chroma hnd.fd2 ho hempty
    exact ⟨_, rfl, by simp [ha, hfd.1], ho'⟩
  · rename_i hfd
    have hnone : mapped 0 chroma = f .third := by simp [mapped, hempty]
    refine ⟨0, by rw [← hbase], ?_, ?_⟩
    · simpa [hformat] using hfd
    · rwa [hnone, Function.update_eq_self]

/-- An unmapped handle is mapped with all its planes or with none. -/
theorem gralloc_map_spec (hk : k.Sound) (hformat : hnd.format ≠ .exynosYCbCr420SpMPriv)
    (hun : hnd.Unmapped) (ho : Owned world.maps (place owner id hnd.mapping)) :
    (gralloc_map k world hnd).2.1.Consistent ∧
      Owned (gralloc_map k world hnd).2.2.maps
        (place owner id (gralloc_map k world hnd).2.1.mapping) := by
  have hzero : (if hnd.flags.isProtected || hnd.flags.nozeroed then
      { hnd with base := 0, base1 := 0, base2 := 0 } else hnd) = hnd := by
    split
    · exact hun.withBases_eq
    · rfl
  rw [gralloc_map, hzero]
  simp only [mapPrivate, if_neg hformat]
  split
  · exact ⟨hun.consistent, ho⟩
  split
  · have hnone := hun.mapping_eq
    rw [hnone] at ho
    have hfirst := mmap_place hk .first (toSizeT hnd.size) hnd.fd ho rfl
    rcases hr : world.mmap k (toSizeT hnd.size) hnd.fd with ⟨e | a, w'⟩
    · rw [hr] at hfirst
      have hfailed : Function.update (fun _ => none) Plane.first
          (mapped (addressOf (.error e)) (toSizeT hnd.size)) = hnd.mapping := by
        rw [hnone]
        funext plane
        cases plane <;> simp [addressOf, mapped]
      rw [hfailed] at hfirst
      exact ⟨hun.consistent, hfirst.2⟩
    · rw [hr] at hfirst
      obtain ⟨ha, ho₁⟩ := hfirst
      obtain ⟨-, hun1, hun2⟩ := hun
      obtain ⟨b1, hr₁, hb1, ho₂⟩ := mapSecond_spec hk { hnd with base := a } hnd.chroma ho₁ rfl
        hun1
      dsimp only
      generalize mapSecond k w' { hnd with base := a } hnd.chroma = r₁ at hr₁ ho₂ ⊢
      obtain ⟨h₁, w₁⟩ := r₁
      obtain rfl : h₁ = { hnd with base := a, base1 := b1 } := hr₁
      obtain ⟨b2, hr₂, hb2, ho₃⟩ := mapThird_spec hk { hnd with base := a, base1 := b1 }
        hnd.chroma ho₂ rfl hun2 hformat
      dsimp only
      generalize mapThird k w₁ { hnd with base := a, base1 := b1 } hnd.chroma = r₂ at hr₂ ho₃ ⊢
      obtain ⟨h₂, w₂⟩ := r₂
      obtain rfl : h₂ = { hnd with base := a, base1 := b1, base2 := b2 } := hr₂
      refine ⟨⟨mmap_ne_failed hk hr, fun h => absurd h ha, fun _ => hb1, fun _ => hb2⟩, ?_⟩
      have hmapping : Handle.mapping { hnd with base := a, base1 := b1, base2 := b2 } =
          Function.update (Function.update (Function.update (fun _ => none) .first
            (mapped a (toSizeT hnd.size))) .second (mapped b1 hnd.chroma)) .third
            (mapped b2 hnd.chroma) := by
        funext plane
        cases plane <;> simp [Handle.mapping, Handle.chroma, hformat]
      rw [hmapping]
      exact ho₃
  · exact ⟨hun.consistent, ho⟩

theorem unmapThird_spec (ho : Owned world.maps (place owner id f))
    (hf : f .third = mapped hnd.base2 chroma) (hbase : hnd.base2 = 0 ↔ hnd.fd2 < 0) :
    (unmapThird world hnd chroma).1 = { hnd with base2 := 0 } ∧
      Owned (unmapThird world hnd chroma).2.maps
        (place owner id (Function.update f .third none)) := by
  rw [unmapThird]
  split
  · rename_i h
    exact ⟨rfl, munmap_place .third ho h.2 hf⟩
  · have hzero : hnd.base2 = 0 := by
      by_contra hne
      have hfd : ¬hnd.fd2 < 0 := fun h => hne (hbase.mpr h)
      simp_all
    have hnone : none = f .third := by simp [hf, mapped, hzero]
    refine ⟨by rw [← hzero], ?_⟩
    rwa [hnone, Function.update_eq_self]

theorem unmapSecond_spec (hnd : Handle) (ho : Owned world.maps (place owner id f))
    (hf1 : f .second = mapped hnd.base1 chroma) (hf2 : f .third = mapped hnd.base2 chroma)
    (hbase1 : hnd.base1 = 0 ↔ hnd.fd1 < 0) (hbase2 : hnd.base2 = 0 ↔ hnd.fd2 < 0) :
    (unmapSecond world hnd chroma).1 = { hnd with base1 := 0, base2 := 0 } ∧
      Owned (unmapSecond world hnd chroma).2.maps
        (place owner id (Function.update (Function.update f .second none) .third none)) := by
  rw [unmapSecond]
  split
  · rename_i hfd
    have hne : hnd.base1 ≠ 0 := fun h => absurd (hbase1.mp h) (by omega)
    rw [if_neg hne]
    exact unmapThird_spec (munmap_place .second ho hne hf1) (by simpa using hf2) hbase2
  · rename_i hfd
    have hzero : hnd.base1 = 0 := hbase1.mpr (by omega)
    have hnone : Function.update f .second none = f :=
      Function.update_eq_self_iff.mpr (by simp [hf1, mapped, hzero])
    rw [hnone]
    obtain ⟨hr, ho'⟩ := unmapThird_spec ho hf2 hbase2
    exact ⟨by rw [hr, ← hzero], ho'⟩

/-- After it no plane is mapped. -/
theorem gralloc_unmap_spec (hformat : hnd.format ≠ .exynosYCbCr420SpMPriv)
    (hcons : hnd.Consistent) (ho : Owned world.maps (place owner id hnd.mapping)) :
    (gralloc_unmap world hnd).1.Unmapped ∧
      Owned (gralloc_unmap world hnd).2.maps (place owner id fun _ => none) := by
  rw [gralloc_unmap]
  simp only [unmapPrivate, if_neg hformat]
  by_cases hbase : hnd.base = 0
  · have hun := hcons.unmapped hbase
    rw [hun.mapping_eq] at ho
    rw [if_pos hbase]
    exact ⟨hun, ho⟩
  · rw [if_neg hbase]
    have ho₁ := munmap_place .first ho hbase rfl
    obtain ⟨hr, ho₂⟩ := unmapSecond_spec { hnd with base := 0 } ho₁ rfl
      (by simp [Handle.mapping, hformat]) (hcons.second hbase) (hcons.third hbase)
    have hnone : Function.update (Function.update (Function.update hnd.mapping .first none)
        .second none) .third none = fun _ => none := by
      funext plane
      cases plane <;> simp
    rw [hnone] at ho₂
    exact ⟨by rw [hr]; exact ⟨rfl, rfl, rfl⟩, ho₂⟩

end Map

end Pro5Android.Gralloc
