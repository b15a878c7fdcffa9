import Mathlib.Data.List.Basic

/-!
# The first copy of each key

A pass over items that judges the first copy of every key and skips the others. What is
rejected still takes its key, so a rejected copy hides the copies that follow it. Dropping
the rejected items first gives the same result exactly when no acceptable item is hidden
in this way.
-/
namespace Library.FirstCopy

inductive Judgement (ω β : Type*)
  | rejected (warning : ω)
  | ignored
  | accepted (value : β)

section Pass

variable {α κ ω β : Type*} [DecidableEq κ] (key : α → κ) (judge : α → Judgement ω β)

/-- The outcome of a pass: what was accepted, how much was rejected, and the warnings, with
`none` for a copy that was skipped. -/
structure Tally (ω β : Type*) where
  accepted : List β := []
  rejected : ℕ := 0
  warnings : List (Option ω) := []

/-- The items one after the other, with the keys seen before them. -/
def pass : List κ → List α → Tally ω β
  | _, [] => {}
  | seen, item :: items =>
      if key item ∈ seen then
        let rest := pass seen items
        { rest with warnings := none :: rest.warnings }
      else
        let rest := pass (key item :: seen) items
        match judge item with
        | .rejected warning =>
            { rest with rejected := rest.rejected + 1, warnings := some warning :: rest.warnings }
        | .ignored => rest
        | .accepted value => { rest with accepted := value :: rest.accepted }

/-- The item is rejected whenever it is judged. -/
def rejects (item : α) : Bool :=
  match judge item with
  | .rejected _ => true
  | _ => false

/-- An acceptable item that has earlier copies, all of them rejected. -/
def Hidden (items : List α) : Prop :=
  ∃ before item after value, items = before ++ item :: after ∧ judge item = .accepted value ∧
    (∃ copy ∈ before, key copy = key item) ∧
    ∀ copy ∈ before, key copy = key item → rejects judge copy = true

/-- What an item adds when it is judged. -/
def accepts (item : α) : List β :=
  match judge item with
  | .accepted value => [value]
  | _ => []

variable {key judge}

theorem accepts_of_rejects {item : α} (h : rejects judge item = true) :
    accepts judge item = [] := by
  unfold rejects at h
  unfold accepts
  cases hitem : judge item <;> simp [hitem] at h ⊢

/-- The order in which keys were seen does not matter, nor how often. -/
theorem pass_congr {seen seen' : List κ} (h : ∀ k, k ∈ seen ↔ k ∈ seen') (items : List α) :
    (pass key judge seen items).accepted = (pass key judge seen' items).accepted := by
  induction items generalizing seen seen' with
  | nil => rfl
  | cons item items ih =>
    have hnext : (pass key judge (key item :: seen) items).accepted =
        (pass key judge (key item :: seen') items).accepted :=
      ih (fun k => by simp [h k])
    by_cases hseen : key item ∈ seen
    · simp only [pass, if_pos hseen, if_pos ((h _).mp hseen)]
      exact ih h
    · simp only [pass, if_neg hseen, if_neg (fun hmem => hseen ((h _).mpr hmem))]
      cases judge item with
      | rejected warning => exact hnext
      | ignored => exact hnext
      | accepted value => exact congrArg (value :: ·) hnext

/-- One item of a pass: its key is seen afterwards, whatever was made of it. -/
theorem pass_cons (seen : List κ) (item : α) (items : List α) :
    (pass key judge seen (item :: items)).accepted =
      (if key item ∈ seen then [] else accepts judge item) ++
        (pass key judge (key item :: seen) items).accepted := by
  by_cases hseen : key item ∈ seen
  · have hsame : ∀ k, k ∈ key item :: seen ↔ k ∈ seen := by
      intro k
      rw [List.mem_cons]
      constructor
      · rintro (rfl | hk)
        · exact hseen
        · exact hk
      · exact .inr
    rw [if_pos hseen, List.nil_append, pass_congr hsame]
    simp [pass, hseen]
  · rw [if_neg hseen]
    unfold accepts
    cases hitem : judge item <;> simp [pass, hseen, hitem]

/-- The keys that count once the rejected items are dropped. -/
def keepKey (judge : α → Judgement ω β) (key : α → κ) (kept : List κ) (item : α) : List κ :=
  if rejects judge item = true then kept else key item :: kept

theorem pass_filter_cons (kept : List κ) (item : α) (items : List α) :
    (pass key judge kept ((item :: items).filter (fun item => !rejects judge item))).accepted =
      (if key item ∈ kept then [] else accepts judge item) ++
        (pass key judge (keepKey judge key kept item)
          (items.filter (fun item => !rejects judge item))).accepted := by
  unfold keepKey
  by_cases hrejects : rejects judge item = true
  · rw [List.filter_cons_of_neg (by simp [hrejects]), if_pos hrejects,
      accepts_of_rejects hrejects, ite_self, List.nil_append]
  · rw [List.filter_cons_of_pos (by simpa using hrejects), if_neg hrejects, pass_cons]

omit [DecidableEq κ] in
theorem keepKey_subset {seen kept : List κ} (h : ∀ k ∈ kept, k ∈ seen) (item : α) :
    ∀ k ∈ keepKey judge key kept item, k ∈ key item :: seen := by
  intro k hk
  unfold keepKey at hk
  split_ifs at hk
  · exact List.mem_cons_of_mem _ (h k hk)
  · rcases List.mem_cons.mp hk with rfl | hk
    · exact List.mem_cons_self
    · exact List.mem_cons_of_mem _ (h k hk)

/-- Fewer keys seen and the rejected items dropped: no less is accepted. -/
theorem length_pass_le {seen kept : List κ} (h : ∀ k ∈ kept, k ∈ seen) (items : List α) :
    (pass key judge seen items).accepted.length ≤
      (pass key judge kept (items.filter (fun item => !rejects judge item))).accepted.length := by
  induction items generalizing seen kept with
  | nil => exact Nat.le_refl _
  | cons item items ih =>
    have hnext := @ih (key item :: seen) (keepKey judge key kept item) (keepKey_subset h item)
    rw [pass_cons, pass_filter_cons, List.length_append, List.length_append]
    by_cases hkept : key item ∈ kept
    · rw [if_pos hkept, if_pos (h _ hkept)]
      omega
    · rw [if_neg hkept]
      split_ifs
      · rw [List.length_nil]
        omega
      · omega

/-- No acceptable item of the list is hidden by keys that were seen and not kept, or by
rejected copies in the list. -/
def Shown (key : α → κ) (judge : α → Judgement ω β) (seen kept : List κ) (items : List α) : Prop :=
  ∀ before item after value, items = before ++ item :: after → judge item = .accepted value →
    key item ∉ kept → (∀ copy ∈ before, key copy = key item → rejects judge copy = true) →
    key item ∉ seen ∧ ∀ copy ∈ before, key copy ≠ key item

omit [DecidableEq κ] in
theorem shown_cons {seen kept : List κ} {first : α} {items : List α} :
    Shown key judge seen kept (first :: items) ↔
      (∀ value, judge first = .accepted value → key first ∉ kept → key first ∉ seen) ∧
        Shown key judge (key first :: seen) (keepKey judge key kept first) items := by
  constructor
  · intro h
    refine ⟨fun value hvalue hkept => (h [] first items value rfl hvalue hkept (by simp)).1, ?_⟩
    intro before item after value hitems hvalue hkept hcopies
    have hold : key item ∉ kept := by
      intro hmem
      refine hkept ?_
      unfold keepKey
      split_ifs
      · exact hmem
      · exact List.mem_cons_of_mem _ hmem
    have hfirst : key first = key item → rejects judge first = true := by
      intro hkey
      by_contra hno
      refine hkept ?_
      rw [keepKey, if_neg hno, hkey]
      exact List.mem_cons_self
    obtain ⟨hseen, hnone⟩ := h (first :: before) item after value (by rw [hitems]; rfl) hvalue
      hold (List.forall_mem_cons.mpr ⟨hfirst, hcopies⟩)
    obtain ⟨hne, hnone⟩ := List.forall_mem_cons.mp hnone
    refine ⟨fun hmem => ?_, hnone⟩
    rcases List.mem_cons.mp hmem with heq | hmem
    · exact hne heq.symm
    · exact hseen hmem
  · rintro ⟨hfirst, hrest⟩ before item after value hitems hvalue hkept hcopies
    cases before with
    | nil =>
      obtain ⟨rfl, rfl⟩ := List.cons.inj hitems
      exact ⟨hfirst value hvalue hkept, by simp⟩
    | cons copy before =>
      obtain ⟨rfl, hsplit⟩ := List.cons.inj hitems
      obtain ⟨hcopy, hcopies⟩ := List.forall_mem_cons.mp hcopies
      have hkept' : key item ∉ keepKey judge key kept first := by
        unfold keepKey
        split_ifs with hrejects
        · exact hkept
        · intro hmem
          rcases List.mem_cons.mp hmem with heq | hmem
          · exact hrejects (hcopy heq.symm)
          · exact hkept hmem
      obtain ⟨hseen, hnone⟩ := hrest before item after value hsplit hvalue hkept' hcopies
      rw [List.mem_cons, not_or] at hseen
      exact ⟨hseen.2, List.forall_mem_cons.mpr ⟨fun heq => hseen.1 heq.symm, hnone⟩⟩

/-- With different keys seen and kept: the passes agree exactly when every item is shown. -/
theorem pass_eq_iff_shown {seen kept : List κ} (h : ∀ k ∈ kept, k ∈ seen) (items : List α) :
    (pass key judge seen items).accepted =
        (pass key judge kept (items.filter (fun item => !rejects judge item))).accepted ↔
      Shown key judge seen kept items := by
  induction items generalizing seen kept with
  | nil =>
    refine ⟨fun _ before item after value hitems => ?_, fun _ => rfl⟩
    exact absurd hitems (by simp)
  | cons first items ih =>
    have hsubset := @keepKey_subset _ _ _ _ key judge _ _ h first
    rw [pass_cons, pass_filter_cons, shown_cons, ← ih hsubset]
    by_cases hkept : key first ∈ kept
    · rw [if_pos hkept, if_pos (h _ hkept)]
      exact ⟨fun heq => ⟨fun _ _ hno => absurd hkept hno, heq⟩, fun heq => heq.2⟩
    rw [if_neg hkept]
    cases hjudge : judge first with
    | accepted value =>
      have haccepts : accepts judge first = [value] := by simp [accepts, hjudge]
      rw [haccepts]
      by_cases hseen : key first ∈ seen
      · rw [if_pos hseen]
        refine ⟨fun heq => ?_, fun hshown => absurd hseen (hshown.1 value rfl hkept)⟩
        have hle := @length_pass_le _ _ _ _ _ key judge _ _ hsubset items
        have hlength := congrArg List.length heq
        simp only [List.nil_append, List.cons_append, List.length_cons] at hlength
        omega
      · rw [if_neg hseen]
        refine ⟨fun heq => ⟨fun _ _ _ => hseen, (List.cons.inj heq).2⟩, fun hshown => ?_⟩
        rw [hshown.2]
    | rejected warning =>
      have haccepts : accepts judge first = [] := by simp [accepts, hjudge]
      rw [haccepts, ite_self]
      exact ⟨fun heq => ⟨fun _ hno => (nomatch hno), heq⟩, fun heq => heq.2⟩
    | ignored =>
      have haccepts : accepts judge first = [] := by simp [accepts, hjudge]
      rw [haccepts, ite_self]
      exact ⟨fun heq => ⟨fun _ hno => (nomatch hno), heq⟩, fun heq => heq.2⟩

/-- What the pass accepts is what it accepts without the rejected items, exactly when no
acceptable item is hidden by rejected copies. -/
theorem pass_filter_iff (items : List α) :
    (pass key judge [] items).accepted =
        (pass key judge [] (items.filter (fun item => !rejects judge item))).accepted ↔
      ¬Hidden key judge items := by
  rw [pass_eq_iff_shown (by simp)]
  constructor
  · rintro hshown ⟨before, item, after, value, hitems, hvalue, ⟨copy, hcopy, hkey⟩, hcopies⟩
    exact (hshown before item after value hitems hvalue (by simp) hcopies).2 copy hcopy hkey
  · intro hhidden before item after value hitems hvalue _ hcopies
    refine ⟨by simp, fun copy hcopy hkey => hhidden ?_⟩
    exact ⟨before, item, after, value, hitems, hvalue, ⟨copy, hcopy, hkey⟩, hcopies⟩

end Pass

end Library.FirstCopy
