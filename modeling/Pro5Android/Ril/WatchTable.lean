import Pro5Android.Ril.Lists

/-!
# The table of watched descriptors

The table, the index each event has of its slot, the set of descriptors for `select` and
the bound `nfds` say the same.

* `Table.removeWatch`, `Table.ril_event_add`, `Table.ril_event_del`: they stay so.
* `processReadReadies_spec`: every watched event with a ready descriptor becomes pending,
  once, and is still watched if it is persistent.
-/

namespace Pro5Android.Ril

open Lib (Links Circle)

/-- What `FD_SET` has bits for. -/
abbrev FD_SETSIZE : ℤ := 1024

structure Table (s : Memory) (known : Addr → Bool) : Prop where
  entry_known : ∀ {i a}, s.watchTable i = some a → known a = true
  entry_index : ∀ {i a}, s.watchTable i = some a → (s.event a).index = (i : ℕ)
  entry_fd : ∀ {i a}, s.watchTable i = some a → 0 ≤ (s.event a).fd ∧ (s.event a).fd < FD_SETSIZE
  entry_read : ∀ {i a}, s.watchTable i = some a → s.readFds (s.event a).fd = true
  entry_nfds : ∀ {i a}, s.watchTable i = some a → (s.event a).fd < s.nfds
  slot : ∀ {a}, known a = true → 0 ≤ (s.event a).index →
    ∃ i : Fin MAX_FD_EVENTS, (s.event a).index = (i : ℕ) ∧ s.watchTable i = some a
  read : ∀ {fd}, s.readFds fd = true → ∃ i a, s.watchTable i = some a ∧ (s.event a).fd = fd
  distinct : ∀ {i j a b}, s.watchTable i = some a → s.watchTable j = some b →
    (s.event a).fd = (s.event b).fd → i = j
  tight : s.nfds ≤ 1 ∨ ∃ i a, s.watchTable i = some a ∧ (s.event a).fd + 1 = s.nfds

/-- A change that clients do not see in the events they have set. -/
structure Kept (s s' : Memory) : Prop where
  fd : ∀ a, (s'.event a).fd = (s.event a).fd
  persist : ∀ a, (s'.event a).persist = (s.event a).persist
  timeout : ∀ a, (s'.event a).timeout = (s.event a).timeout

theorem Kept.refl (s : Memory) : Kept s s := ⟨fun _ => rfl, fun _ => rfl, fun _ => rfl⟩

theorem Kept.trans {s s' s'' : Memory} (h : Kept s s') (h' : Kept s' s'') : Kept s s'' where
  fd a := (h'.fd a).trans (h.fd a)
  persist a := (h'.persist a).trans (h.persist a)
  timeout a := (h'.timeout a).trans (h.timeout a)

theorem kept_of_index {s s' : Memory} {a : Addr} {index : ℤ}
    (h : s'.event = Function.update s.event a { s.event a with index := index }) : Kept s s' := by
  have hevent : ∀ b, s'.event b = if b = a then { s.event a with index := index } else s.event b :=
    fun b => by rw [h, Function.update_apply]
  refine ⟨fun b => ?_, fun b => ?_, fun b => ?_⟩ <;>
  · rw [hevent]
    split_ifs with hb
    · rw [hb]
    · rfl

/-! ## The highest descriptor -/

variable {s s' : Memory} {known : Addr → Bool} {a b : Addr} {i : Fin MAX_FD_EVENTS}

theorem le_higherFd (s : Memory) (n : ℤ) (i : Fin MAX_FD_EVENTS) : n ≤ higherFd s n i := by
  rw [higherFd]
  split
  · split_ifs <;> omega
  · exact le_rfl

theorem fd_le_higherFd (n : ℤ) (ha : s.watchTable i = some a) :
    (s.event a).fd ≤ higherFd s n i := by
  rw [higherFd, ha]
  dsimp only
  split_ifs <;> omega

theorem higherFd_attained (s : Memory) (n : ℤ) (i : Fin MAX_FD_EVENTS) :
    higherFd s n i = n ∨ ∃ a, s.watchTable i = some a ∧ (s.event a).fd = higherFd s n i := by
  rw [higherFd]
  split
  · next a ha =>
    split_ifs
    · exact .inr ⟨a, ha, rfl⟩
    · exact .inl rfl
  · exact .inl rfl

theorem le_foldl_higherFd (s : Memory) (slots : List (Fin MAX_FD_EVENTS)) (n : ℤ) :
    n ≤ slots.foldl (higherFd s) n := by
  induction slots generalizing n with
  | nil => exact le_rfl
  | cons j slots ih => exact (le_higherFd s n j).trans (ih _)

theorem fd_le_foldl_higherFd {slots : List (Fin MAX_FD_EVENTS)} (n : ℤ) (hi : i ∈ slots)
    (ha : s.watchTable i = some a) : (s.event a).fd ≤ slots.foldl (higherFd s) n := by
  induction slots generalizing n with
  | nil => exact absurd hi List.not_mem_nil
  | cons j slots ih =>
    rw [List.foldl_cons]
    rcases List.mem_cons.mp hi with rfl | hi
    · exact (fd_le_higherFd n ha).trans (le_foldl_higherFd s slots _)
    · exact ih _ hi

theorem foldl_higherFd_attained (s : Memory) (slots : List (Fin MAX_FD_EVENTS)) (n : ℤ) :
    slots.foldl (higherFd s) n = n ∨
      ∃ i a, s.watchTable i = some a ∧ (s.event a).fd = slots.foldl (higherFd s) n := by
  induction slots generalizing n with
  | nil => exact .inl rfl
  | cons j slots ih =>
    rw [List.foldl_cons]
    rcases ih (higherFd s n j) with h | h
    · rcases higherFd_attained s n j with hn | ⟨a, ha, hfd⟩
      · exact .inl (h.trans hn)
      · exact .inr ⟨j, a, ha, by rw [h, hfd]⟩
    · exact .inr h

/-! ## The operations -/

namespace Table

/-- The table does not depend on the links and the events that are not in it. -/
theorem congr (h : Table s known) {known' : Addr → Bool} (htable : s'.watchTable = s.watchTable)
    (hread : s'.readFds = s.readFds) (hnfds : s'.nfds = s.nfds)
    (hentry : ∀ {i a}, s.watchTable i = some a → known' a = true ∧
      (s'.event a).fd = (s.event a).fd ∧ (s'.event a).index = (s.event a).index)
    (hslot : ∀ {a}, known' a = true → 0 ≤ (s'.event a).index →
      known a = true ∧ (s'.event a).index = (s.event a).index) : Table s' known' where
  entry_known {i a} ha := (hentry (htable ▸ ha)).1
  entry_index {i a} ha := by
    rw [htable] at ha
    rw [(hentry ha).2.2, h.entry_index ha]
  entry_fd {i a} ha := by
    rw [htable] at ha
    rw [(hentry ha).2.1]
    exact h.entry_fd ha
  entry_read {i a} ha := by
    rw [htable] at ha
    rw [(hentry ha).2.1, hread]
    exact h.entry_read ha
  entry_nfds {i a} ha := by
    rw [htable] at ha
    rw [(hentry ha).2.1, hnfds]
    exact h.entry_nfds ha
  slot {a} ha hindex := by
    obtain ⟨hknown, heq⟩ := hslot ha hindex
    rw [heq, htable]
    exact h.slot hknown (heq ▸ hindex)
  read {fd} hfd := by
    rw [hread] at hfd
    obtain ⟨i, a, ha, rfl⟩ := h.read hfd
    exact ⟨i, a, by rwa [htable], (hentry ha).2.1⟩
  distinct {i j a b} ha hb hab := by
    rw [htable] at ha hb
    rw [(hentry ha).2.1, (hentry hb).2.1] at hab
    exact h.distinct ha hb hab
  tight := by
    rw [hnfds, htable]
    refine h.tight.imp id ?_
    rintro ⟨i, a, ha, hfd⟩
    exact ⟨i, a, ha, by rw [(hentry ha).2.1, hfd]⟩

theorem slot_unique (h : Table s known) {j : Fin MAX_FD_EVENTS} (hi : s.watchTable i = some a)
    (hj : s.watchTable j = some a) : i = j :=
  h.distinct hi hj rfl

/-- Removing an event leaves the other ones where they are. -/
theorem removeWatch_watchTable (s : Memory) (a : Addr) (i : Fin MAX_FD_EVENTS) :
    (removeWatch s a i).watchTable = Function.update s.watchTable i none := by
  rw [removeWatch]
  split_ifs <;> rfl

theorem removeWatch_event (s : Memory) (a : Addr) (i : Fin MAX_FD_EVENTS) :
    (removeWatch s a i).event = Function.update s.event a { s.event a with index := -1 } := by
  rw [removeWatch]
  split_ifs <;> rfl

theorem removeWatch_readFds (s : Memory) (a : Addr) (i : Fin MAX_FD_EVENTS) :
    (removeWatch s a i).readFds = Function.update s.readFds (s.event a).fd false := by
  rw [removeWatch]
  split_ifs <;> rfl

theorem removeWatch_links (s : Memory) (a : Addr) (i : Fin MAX_FD_EVENTS) :
    (removeWatch s a i).links = s.links := by
  rw [removeWatch]
  split_ifs <;> rfl

theorem kept_removeWatch (s : Memory) (a : Addr) (i : Fin MAX_FD_EVENTS) :
    Kept s (removeWatch s a i) :=
  kept_of_index (removeWatch_event s a i)

/-- The bound stays or is that of the descriptors left in the table. -/
theorem removeWatch_nfds (s : Memory) (a : Addr) (i : Fin MAX_FD_EVENTS) :
    ∃ t : Memory, t.watchTable = (removeWatch s a i).watchTable ∧
      t.event = (removeWatch s a i).event ∧ (removeWatch s a i).nfds =
        if (s.event a).fd + 1 = s.nfds then highestFd t + 1 else s.nfds := by
  rw [removeWatch_watchTable, removeWatch_event]
  refine ⟨{ s with
    watchTable := Function.update s.watchTable i none
    event := Function.update s.event a { s.event a with index := -1 }
    readFds := Function.update s.readFds (s.event a).fd false }, rfl, rfl, ?_⟩
  simp only [removeWatch, Function.update_self]
  split_ifs <;> rfl

theorem removeWatch_entry (h : Table s known) (hi : s.watchTable i = some a)
    (j : Fin MAX_FD_EVENTS) :
    (removeWatch s a i).watchTable j = some b ↔ s.watchTable j = some b ∧ b ≠ a := by
  rw [removeWatch_watchTable]
  rcases eq_or_ne j i with rfl | hj
  · rw [Function.update_self]
    simp only [reduceCtorEq, false_iff, not_and, not_not]
    intro hb
    exact Option.some.inj (hb.symm.trans hi)
  · rw [Function.update_of_ne hj]
    refine (and_iff_left_of_imp ?_).symm
    rintro hb rfl
    exact hj (h.slot_unique hb hi)

theorem removeWatch (h : Table s known) (hi : s.watchTable i = some a) :
    Table (removeWatch s a i) known := by
  have hentry {j b} := h.removeWatch_entry (b := b) hi j
  have hkept := kept_removeWatch s a i
  have hevent {b} (hb : b ≠ a) : (Ril.removeWatch s a i).event b = s.event b := by
    rw [removeWatch_event, Function.update_of_ne hb]
  obtain ⟨t, htable, htevent, hnfds⟩ := removeWatch_nfds s a i
  have hcond : (s.event a).fd + 1 ≤ s.nfds := h.entry_nfds hi
  refine ⟨fun hb => ?_, fun hb => ?_, fun hb => ?_, fun hb => ?_, fun hb => ?_,
    fun {b} hb hindex => ?_, fun {fd} hfd => ?_, fun hb hc hfd => ?_, ?_⟩
  · exact h.entry_known (hentry.mp hb).1
  · obtain ⟨hb', hne⟩ := hentry.mp hb
    rw [hevent hne, h.entry_index hb']
  · rw [hkept.fd]
    exact h.entry_fd (hentry.mp hb).1
  · obtain ⟨hb', hne⟩ := hentry.mp hb
    rw [removeWatch_readFds, hkept.fd, Function.update_of_ne, h.entry_read hb']
    intro hfd
    have hji := h.distinct hb' hi hfd
    rw [hji, hi] at hb'
    exact hne (Option.some.inj hb').symm
  · rw [hnfds]
    split_ifs
    · rw [← htable] at hb
      rw [← htevent]
      exact Int.lt_add_one_of_le (fd_le_foldl_higherFd 0 (List.mem_finRange _) hb)
    · rw [hkept.fd]
      exact h.entry_nfds (hentry.mp hb).1
  · have hne : b ≠ a := by
      rintro rfl
      rw [removeWatch_event, Function.update_self] at hindex
      simp at hindex
    rw [hevent hne] at hindex ⊢
    obtain ⟨j, hj, hb'⟩ := h.slot hb hindex
    exact ⟨j, hj, hentry.mpr ⟨hb', hne⟩⟩
  · rw [removeWatch_readFds] at hfd
    have hne : fd ≠ (s.event a).fd := by
      rintro rfl
      rw [Function.update_self] at hfd
      exact absurd hfd (by decide)
    rw [Function.update_of_ne hne] at hfd
    obtain ⟨j, b, hb, rfl⟩ := h.read hfd
    exact ⟨j, b, hentry.mpr ⟨hb, fun hba => hne (by rw [hba])⟩, hkept.fd b⟩
  · rw [hkept.fd, hkept.fd] at hfd
    exact h.distinct (hentry.mp hb).1 (hentry.mp hc).1 hfd
  · rw [hnfds]
    split_ifs with hlast
    · rcases foldl_higherFd_attained t (List.finRange MAX_FD_EVENTS) 0 with h0 | ⟨j, b, hb, hfd⟩
      · exact .inl (by rw [highestFd, h0]; rfl)
      · rw [htable] at hb
        rw [htevent] at hfd
        exact .inr ⟨j, b, hb, by rw [hfd, highestFd]⟩
    · refine h.tight.imp id ?_
      rintro ⟨j, b, hb, hfd⟩
      exact ⟨j, b, hentry.mpr ⟨hb, fun hba => hlast (hba ▸ hfd)⟩, by rw [hkept.fd, hfd]⟩

end Table

/-- The event gets the first free slot; without one, nothing happens. -/
theorem ril_event_add_cases (s : Memory) (a : Addr) :
    (∃ i, s.watchTable i = none ∧
      (ril_event_add s a).watchTable = Function.update s.watchTable i (some a) ∧
      (ril_event_add s a).event =
        Function.update s.event a { s.event a with index := (i : ℕ) } ∧
      (ril_event_add s a).readFds = Function.update s.readFds (s.event a).fd true ∧
      (ril_event_add s a).nfds = max s.nfds ((s.event a).fd + 1) ∧
      (ril_event_add s a).links = s.links) ∨
    (∀ i, s.watchTable i ≠ none) ∧ ril_event_add s a = s := by
  rw [ril_event_add]
  split
  · next i hfind =>
    have hi := List.find?_some hfind
    refine .inl ⟨i, by simpa using hi, ?_⟩
    simp only [Function.update_self]
    split_ifs with hfd
    · exact ⟨rfl, rfl, rfl, by rw [max_eq_right (by omega)], rfl⟩
    · exact ⟨rfl, rfl, rfl, by rw [max_eq_left (by omega)], rfl⟩
  · next hfind =>
    refine .inr ⟨fun i hi => ?_, rfl⟩
    exact List.find?_eq_none.mp hfind i (List.mem_finRange i) (by simp [hi])

theorem kept_ril_event_add (s : Memory) (a : Addr) : Kept s (ril_event_add s a) := by
  rcases ril_event_add_cases s a with ⟨i, -, -, hevent, -⟩ | ⟨-, hsame⟩
  · exact kept_of_index hevent
  · rw [hsame]
    exact .refl s

theorem ril_event_add_links (s : Memory) (a : Addr) : (ril_event_add s a).links = s.links := by
  rcases ril_event_add_cases s a with ⟨i, -, -, -, -, -, hlinks⟩ | ⟨-, hsame⟩
  · exact hlinks
  · rw [hsame]

/-- Nothing else is replaced. -/
theorem ril_event_add_entry (h : s.watchTable i = some b) (a : Addr) :
    (ril_event_add s a).watchTable i = some b := by
  rcases ril_event_add_cases s a with ⟨j, hj, htable, -⟩ | ⟨-, hsame⟩
  · rw [htable, Function.update_of_ne, h]
    rintro rfl
    exact absurd (hj.symm.trans h) (by simp)
  · rwa [hsame]

namespace Table

theorem ril_event_add (h : Table s known) (ha : known a = true)
    (hfree : ∀ i, s.watchTable i ≠ some a)
    (hfd : 0 ≤ (s.event a).fd ∧ (s.event a).fd < FD_SETSIZE)
    (hnew : s.readFds (s.event a).fd = false) : Table (ril_event_add s a) known := by
  have hkept := kept_ril_event_add s a
  have hold {j b} (hb : s.watchTable j = some b) := ril_event_add_entry hb a
  rcases ril_event_add_cases s a with ⟨i, hi, htable, hevent, hread, hnfds, -⟩ | ⟨-, hsame⟩
  · generalize Ril.ril_event_add s a = s' at hkept hold htable hevent hread hnfds
    have hentry {j b} (hb : s'.watchTable j = some b) :
        j = i ∧ b = a ∨ b ≠ a ∧ s.watchTable j = some b := by
      rw [htable] at hb
      rcases eq_or_ne j i with rfl | hj
      · rw [Function.update_self] at hb
        exact .inl ⟨rfl, (Option.some.inj hb).symm⟩
      · rw [Function.update_of_ne hj] at hb
        exact .inr ⟨fun hba => hfree j (hba ▸ hb), hb⟩
    have ha' : s'.watchTable i = some a := by
      rw [htable, Function.update_self]
    have hself : (s'.event a).index = (i : ℕ) := by
      rw [hevent, Function.update_self]
    have hother {b} (hb : b ≠ a) : s'.event b = s.event b := by
      rw [hevent, Function.update_of_ne hb]
    refine ⟨fun {j b} hb => ?_, fun {j b} hb => ?_, fun {j b} hb => ?_, fun {j b} hb => ?_,
      fun {j b} hb => ?_, fun {b} hb hindex => ?_, fun {fd} hfd => ?_,
      fun {j k b c} hb hc hbc => ?_, ?_⟩
    · rcases hentry hb with ⟨-, rfl⟩ | ⟨-, hb⟩
      · exact ha
      · exact h.entry_known hb
    · rcases hentry hb with ⟨rfl, rfl⟩ | ⟨hne, hb⟩
      · exact hself
      · rw [hother hne, h.entry_index hb]
    · rw [hkept.fd]
      rcases hentry hb with ⟨-, rfl⟩ | ⟨-, hb⟩
      · exact hfd
      · exact h.entry_fd hb
    · rw [hkept.fd, hread]
      rcases eq_or_ne (s.event b).fd (s.event a).fd with hbfd | hbfd
      · rw [hbfd, Function.update_self]
      · rw [Function.update_of_ne hbfd]
        rcases hentry hb with ⟨-, rfl⟩ | ⟨-, hb⟩
        · exact absurd rfl hbfd
        · exact h.entry_read hb
    · rw [hkept.fd, hnfds]
      rcases hentry hb with ⟨-, rfl⟩ | ⟨-, hb⟩
      · exact lt_max_of_lt_right (by omega)
      · exact lt_max_of_lt_left (h.entry_nfds hb)
    · rcases eq_or_ne b a with rfl | hne
      · exact ⟨i, hself, ha'⟩
      · rw [hother hne] at hindex ⊢
        obtain ⟨j, hj, hb'⟩ := h.slot hb hindex
        exact ⟨j, hj, hold hb'⟩
    · rw [hread] at hfd
      rcases eq_or_ne fd (s.event a).fd with rfl | hne
      · exact ⟨i, a, ha', hkept.fd a⟩
      · rw [Function.update_of_ne hne] at hfd
        obtain ⟨j, b, hb, rfl⟩ := h.read hfd
        exact ⟨j, b, hold hb, hkept.fd b⟩
    · -- the new descriptor was not watched before
      have hfresh {j b} (hb : s.watchTable j = some b) : (s.event b).fd ≠ (s.event a).fd := by
        intro heq
        have hread := h.entry_read hb
        rw [heq, hnew] at hread
        exact absurd hread (by decide)
      rw [hkept.fd, hkept.fd] at hbc
      rcases hentry hb with ⟨rfl, rfl⟩ | ⟨-, hb⟩ <;> rcases hentry hc with ⟨rfl, rfl⟩ | ⟨-, hc⟩
      · rfl
      · exact absurd hbc.symm (hfresh hc)
      · exact absurd hbc (hfresh hb)
      · exact h.distinct hb hc hbc
    · rw [hnfds]
      rcases max_choice s.nfds ((s.event a).fd + 1) with hmax | hmax
      · rw [hmax]
        refine h.tight.imp id ?_
        rintro ⟨j, b, hb, hb'⟩
        exact ⟨j, b, hold hb, by rw [hkept.fd, hb']⟩
      · exact .inr ⟨i, a, ha', by rw [hkept.fd, hmax]⟩
  · rw [hsame]
    exact h

end Table

/-! ## Deleting an event -/

theorem ril_event_del_cases (h : Table s known) (ha : known a = true) :
    (∃ i, s.watchTable i = some a ∧ ril_event_del s a = removeWatch s a i) ∨
      (∀ i, s.watchTable i ≠ some a) ∧ ril_event_del s a = s := by
  rw [ril_event_del]
  split_ifs with hindex
  · obtain ⟨i, hi, hslot⟩ := h.slot ha hindex.1
    refine .inl ⟨i, hslot, ?_⟩
    congr 1
    exact Fin.ext (by simp [hi])
  · refine .inr ⟨fun i hi => hindex ?_, rfl⟩
    rw [h.entry_index hi]
    omega

theorem kept_ril_event_del (h : Table s known) (ha : known a = true) :
    Kept s (ril_event_del s a) := by
  rcases ril_event_del_cases h ha with ⟨i, -, heq⟩ | ⟨-, heq⟩
  · rw [heq]
    exact Table.kept_removeWatch s a i
  · rw [heq]
    exact .refl s

theorem ril_event_del_entry (h : Table s known) (ha : known a = true) (j : Fin MAX_FD_EVENTS) :
    (ril_event_del s a).watchTable j = some b ↔ s.watchTable j = some b ∧ b ≠ a := by
  rcases ril_event_del_cases h ha with ⟨i, hi, heq⟩ | ⟨hfree, heq⟩
  · rw [heq, h.removeWatch_entry hi]
  · rw [heq]
    refine (and_iff_left_of_imp ?_).symm
    rintro hb rfl
    exact hfree j hb

theorem ril_event_del_links (s : Memory) (a : Addr) : (ril_event_del s a).links = s.links := by
  rw [ril_event_del]
  split_ifs
  · exact Table.removeWatch_links s a _
  · rfl

theorem Table.ril_event_del (h : Table s known) (ha : known a = true) :
    Table (ril_event_del s a) known := by
  rcases ril_event_del_cases h ha with ⟨i, hi, heq⟩ | ⟨-, heq⟩
  · rw [heq]
    exact h.removeWatch hi
  · rwa [heq]

/-! ## Ready descriptors -/

section Ready

variable {timers pending : List Addr} {rfds : ℤ → Bool} {n : ℤ}

theorem Lists.kept (h : Lists s known timers pending) (hkept : Kept s s')
    (hlinks : s'.links = s.links) : Lists s' known timers pending :=
  h.congr (fun _ _ => by rw [hlinks]) (fun a _ => ⟨hkept.timeout a, hkept.fd a⟩) h.clients
    fun _ ha => ha

theorem Lists.watched_notMem (h : Lists s known timers pending) (ht : Table s known)
    (hi : s.watchTable i = some a) : a ∉ timers := by
  intro hmem
  have hfd := h.timer_fd a hmem
  have := (ht.entry_fd hi).1
  omega

/-- The event in slot `i` if its descriptor is ready. -/
def readyAt (s : Memory) (rfds : ℤ → Bool) (i : Fin MAX_FD_EVENTS) : Option Addr :=
  (s.watchTable i).filter fun a => rfds (s.event a).fd

theorem readyAt_eq_some :
    readyAt s rfds i = some a ↔ s.watchTable i = some a ∧ rfds (s.event a).fd = true := by
  rw [readyAt, Option.filter_eq_some_iff]

theorem readReady_none (hi : readyAt s rfds i = none) :
    readReady rfds (s, n) i = some (s, n) := by
  rw [readReady]
  split_ifs
  · split
    · next a ha =>
      split_ifs with hfd
      · have := readyAt_eq_some.mpr ⟨ha, hfd⟩
        exact absurd (hi.symm.trans this) (by simp)
      · rfl
    · rfl
  · rfl

theorem readReady_some (hl : Lists s known timers pending) (ht : Table s known)
    (hi : readyAt s rfds i = some a) (hn : 0 < n) (hfresh : a ∉ pending) :
    ∃ s', readReady rfds (s, n) i = some (s', n - 1) ∧
      Lists s' known timers (pending ++ [a]) ∧ Table s' known ∧ Kept s s' ∧
      (∀ j ≠ i, s'.watchTable j = s.watchTable j) ∧
      ((s.event a).persist = true → s'.watchTable i = some a) := by
  obtain ⟨hslot, hfd⟩ := readyAt_eq_some.mp hi
  obtain ⟨l, hadd, hl'⟩ :=
    hl.addPending (ht.entry_known hslot) (hl.watched_notMem ht hslot) hfresh
  have ht' : Table { s with links := l } known :=
    ht.congr rfl rfl rfl (fun hb => ⟨ht.entry_known hb, rfl, rfl⟩) fun ha _ => ⟨ha, rfl⟩
  have hstep : readReady rfds (s, n) i = some (if (s.event a).persist then { s with links := l }
      else removeWatch { s with links := l } a i, n - 1) := by
    rw [readReady, if_pos hn]
    simp only [hslot, hfd, if_true, hadd, Option.map_some]
  refine ⟨_, hstep, ?_⟩
  split_ifs with hpersist
  · exact ⟨hl', ht', ⟨fun _ => rfl, fun _ => rfl, fun _ => rfl⟩, fun _ _ => rfl, fun _ => hslot⟩
  · have hkept := Table.kept_removeWatch { s with links := l } a i
    refine ⟨hl'.kept hkept (Table.removeWatch_links _ a i), ht'.removeWatch hslot,
      ⟨hkept.fd, hkept.persist, hkept.timeout⟩, fun j hj => ?_, fun h => absurd h hpersist⟩
    rw [Table.removeWatch_watchTable, Function.update_of_ne hj]

theorem foldlM_readReady {slots : List (Fin MAX_FD_EVENTS)} (hnodup : slots.Nodup)
    (hl : Lists s known timers pending) (ht : Table s known)
    (hn : ((slots.filterMap (readyAt s rfds)).length : ℤ) ≤ n)
    (hfresh : ∀ a ∈ slots.filterMap (readyAt s rfds), a ∉ pending) :
    ∃ s' n', slots.foldlM (readReady rfds) (s, n) = some (s', n') ∧
      Lists s' known timers (pending ++ slots.filterMap (readyAt s rfds)) ∧ Table s' known ∧
      Kept s s' ∧
      ∀ i a, s.watchTable i = some a → (s.event a).persist = true → s'.watchTable i = some a := by
  induction slots generalizing s n pending with
  | nil => exact ⟨s, n, rfl, by simpa using hl, ht, .refl s, fun _ _ ha _ => ha⟩
  | cons i slots ih =>
    obtain ⟨hi, hnodup⟩ := List.nodup_cons.mp hnodup
    rw [List.foldlM_cons]
    cases hready : readyAt s rfds i with
    | none =>
      rw [List.filterMap_cons_none hready] at hn hfresh ⊢
      obtain ⟨s', n', hs', hrest⟩ := ih hnodup hl ht hn hfresh
      exact ⟨s', n', by rw [readReady_none hready]; exact hs', hrest⟩
    | some a =>
      rw [List.filterMap_cons_some hready] at hn hfresh ⊢
      rw [List.length_cons] at hn
      have hpos : 0 < n := by omega
      obtain ⟨s₁, hs₁, hl₁, ht₁, hkept, hothers, hpersist⟩ :=
        readReady_some hl ht hready hpos (hfresh a List.mem_cons_self)
      have hsame : slots.filterMap (readyAt s₁ rfds) = slots.filterMap (readyAt s rfds) := by
        refine List.filterMap_congr fun j hj => ?_
        have hji : j ≠ i := fun hji => hi (hji ▸ hj)
        simp only [readyAt, hothers j hji, hkept.fd]
      obtain ⟨s', n', hs', hl', ht', hkept', hpersist'⟩ := ih (n := n - 1) hnodup hl₁ ht₁
        (by rw [hsame]; omega) (by
          rw [hsame]
          intro b hb hmem
          rcases List.mem_append.mp hmem with hmem | hmem
          · exact hfresh b (List.mem_cons_of_mem a hb) hmem
          · obtain ⟨j, hj, hbj⟩ := List.mem_filterMap.mp hb
            rw [List.mem_singleton.mp hmem] at hbj
            have hji := ht.slot_unique (readyAt_eq_some.mp hbj).1 (readyAt_eq_some.mp hready).1
            exact hi (hji ▸ hj))
      refine ⟨s', n', by rw [hs₁]; exact hs', ?_, ht', hkept.trans hkept', fun j b hb hp => ?_⟩
      · rw [hsame, List.append_assoc] at hl'
        exact hl'
      · refine hpersist' j b ?_ (by rwa [hkept.persist])
        rcases eq_or_ne j i with rfl | hj
        · obtain rfl := Option.some.inj (hb.symm.trans (readyAt_eq_some.mp hready).1)
          exact hpersist hp
        · rwa [hothers j hj]

/-- The watched events with a ready descriptor, in the order of their slots. -/
def readyEvents (s : Memory) (rfds : ℤ → Bool) : List Addr :=
  (List.finRange MAX_FD_EVENTS).filterMap (readyAt s rfds)

/-- There are no more of them than ready descriptors. -/
theorem length_readyEvents_le (ht : Table s known) {fds : List ℤ} :
    (readyEvents s fun fd => decide (fd ∈ fds)).length ≤ fds.length := by
  have hnodup :
      ((readyEvents s fun fd => decide (fd ∈ fds)).map fun a => (s.event a).fd).Nodup := by
    refine List.pairwise_map.mpr (List.pairwise_filterMap.mpr ?_)
    refine (List.nodup_finRange MAX_FD_EVENTS).imp fun hij a ha b hb hab => hij ?_
    exact ht.distinct (readyAt_eq_some.mp ha).1 (readyAt_eq_some.mp hb).1 hab
  have hsubset :
      ((readyEvents s fun fd => decide (fd ∈ fds)).map fun a => (s.event a).fd) ⊆ fds := by
    intro fd hfd
    obtain ⟨a, ha, rfl⟩ := List.mem_map.mp hfd
    obtain ⟨i, -, hi⟩ := List.mem_filterMap.mp ha
    exact of_decide_eq_true (readyAt_eq_some.mp hi).2
  have hle := (List.subperm_of_subset hnodup hsubset).length_le
  rwa [List.length_map] at hle

/-- Every watched event with a ready descriptor becomes pending. -/
theorem processReadReadies_spec {fds : List ℤ} (hl : Lists s known timers pending)
    (ht : Table s known)
    (hfresh : ∀ a ∈ readyEvents s fun fd => decide (fd ∈ fds), a ∉ pending) :
    ∃ s', processReadReadies s (fun fd => decide (fd ∈ fds)) fds.length = some s' ∧
      Lists s' known timers (pending ++ readyEvents s fun fd => decide (fd ∈ fds)) ∧
      Table s' known ∧ Kept s s' ∧
      ∀ i a, s.watchTable i = some a → (s.event a).persist = true → s'.watchTable i = some a := by
  have hn : (readyEvents s fun fd => decide (fd ∈ fds)).length ≤ fds.length :=
    length_readyEvents_le ht
  obtain ⟨s', n', hs', hrest⟩ :=
    foldlM_readReady (List.nodup_finRange MAX_FD_EVENTS) hl ht (Int.ofNat_le.mpr hn) hfresh
  exact ⟨s', by rw [processReadReadies, hs', Option.map_some], hrest⟩

end Ready

end Pro5Android.Ril
