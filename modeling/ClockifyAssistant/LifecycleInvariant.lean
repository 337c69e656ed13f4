import Mathlib.Order.Nat
import ClockifyAssistant.Lifecycle

/-!
Every move of the lifecycle keeps its invariant, one field at a time, and only
ever takes a row forward: identities never change, a claimed confirmation stays
claimed, and no identifier that was drawn before is drawn again.
-/
namespace ClockifyAssistant

theorem ActionResultKind.claimed_toPending (kind : ActionResultKind) :
    kind.toPending.claimed = true := by
  cases kind <;> rfl

namespace Lifecycle

open Function

variable {π : Policy} {base : Nat} {c c' c'' : Core}

attribute [local simp] Core.addPreview Core.addBatch Core.addOperation Core.setConf Core.setOp
  Core.setRes Core.setBatch Core.setItem Core.setStep Core.reconcileConf Function.update_apply

attribute [local grind =] PendingStatus.claimed ConfirmationBatchItemStatus.started

attribute [local grind .] ActionResultKind.toPending_ne_pending
  ActionResultKind.toPending_ne_cancelled ActionResultKind.toPending_ne_expired
  ActionResultKind.toPending_ne_executing ActionResultKind.toOperation_ne_prepared
  ActionResultKind.toOperation_ne_executing ActionResultKind.claimed_toPending

section Identifiers

theorem Move.conf_lt (h : Move π base c c') (hI : Inv c) :
    ∀ i x, c'.conf i = some x → i < c'.nextId ∧ x.operationId < c'.nextId := by
  have hconf := hI.conf_lt
  intro i x hx
  cases h with
  | forget h =>
    have hi := h.conf i
    have hn := h.nextId
    grind
  | _ =>
    simp at hx ⊢
    grind

theorem Move.op_lt (h : Move π base c c') (hI : Inv c) :
    ∀ o y, c'.op o = some y → o < c'.nextId ∧ ∀ i, y.confirmationId = some i → i < c'.nextId := by
  have hop := hI.op_lt
  have hconf := hI.conf_lt
  intro o y hy
  cases h with
  | forget h =>
    have ho := h.op o
    have hn := h.nextId
    grind
  | _ =>
    simp at hy ⊢
    grind

theorem Move.res_lt (h : Move π base c c') (hI : Inv c) :
    ∀ r z, c'.res r = some z → r < c'.nextId ∧ ∀ o, z.operationId = some o → o < c'.nextId := by
  have hres := hI.res_lt
  have hconf := hI.conf_lt
  have hop := hI.op_lt
  intro r z hz
  cases h with
  | forget h =>
    have hr := h.res r
    have hn := h.nextId
    grind
  | _ =>
    simp at hz ⊢
    grind

theorem Move.batch_lt (h : Move π base c c') (hI : Inv c) :
    ∀ b v, c'.batch b = some v → b < c'.nextId := by
  have hbatch := hI.batch_lt
  intro b v hv
  cases h with
  | forget h =>
    have hb := h.batch b
    have hn := h.nextId
    grind
  | _ =>
    simp at hv ⊢
    grind

theorem Move.step_lt (h : Move π base c c') (hI : Inv c) :
    ∀ s v, c'.step s = some v → v.operationId < c'.nextId := by
  have hstep := hI.step_lt
  intro s v hv
  cases h with
  | forget h =>
    have hs := h.step s
    have hn := h.nextId
    grind
  | _ =>
    simp at hv ⊢
    grind

theorem Move.nextId_le (h : Move π base c c') : c.nextId ≤ c'.nextId := by
  cases h with
  | forget h => exact h.nextId.symm.le
  | _ => simp

end Identifiers

section Operations

theorem Move.link (h : Move π base c c') (hI : Inv c) :
    ∀ i x y, c'.conf i = some x → c'.op x.operationId = some y → y.confirmationId = some i := by
  have hconf := hI.conf_lt
  have hop := hI.op_lt
  have hlink := hI.link
  intro i x y hx hy
  cases h with
  | forget h =>
    have hi := h.conf i
    have ho := h.op x.operationId
    grind
  | _ =>
    simp at hx hy
    grind

theorem Move.owned_unique (h : Move π base c c') (hI : Inv c) :
    ∀ r r' z z' o, c'.res r = some z → c'.res r' = some z' →
      z.operationId = some o → z'.operationId = some o → r = r' := by
  have hunique := hI.owned_unique
  have hres := hI.res_lt
  have hpending := hI.pending
  simp only [Core.unowned] at hpending
  intro r r' z z' o hz hz' ho ho'
  cases h with
  | forget h =>
    have hr := h.res r
    have hr' := h.res r'
    grind
  | _ =>
    simp at hz hz'
    grind [Core.unowned]

/-- A pending preview owns no result: what its claim or its drop needs. -/
theorem Move.pending_unowned (h : Move π base c c') (hI : Inv c) {i : ConfirmationId}
    {x : ConfView} (hx : c'.conf i = some x) (hs : x.status = .pending) :
    c'.unowned x.operationId := by
  have hconf := hI.conf_lt
  have hlink := hI.link
  have hres := hI.res_lt
  have hpending := hI.pending
  simp only [Core.unowned] at hpending
  intro r z hz
  cases h with
  | forget h =>
    have hi := h.conf i
    have hr := h.res r
    grind
  | _ =>
    simp at hx hz
    grind

theorem Move.pending (h : Move π base c c') (hI : Inv c) :
    ∀ i x, c'.conf i = some x → x.status = .pending →
      x.resultId = none ∧ c'.unowned x.operationId ∧ ∀ y, c'.op x.operationId = some y →
        (y.status = .prepared ∧ y.resultId = none) ∨ y.status = .definitiveFailed := by
  intro i x hx hs
  refine ⟨?_, h.pending_unowned hI hx hs, ?_⟩
  · have hpending := hI.pending
    cases h with
    | forget h =>
      have hi := h.conf i
      grind
    | _ =>
      simp at hx
      grind
  · have hconf := hI.conf_lt
    have hop := hI.op_lt
    have hlink := hI.link
    have hpending := hI.pending
    intro y hy
    cases h with
    | forget h =>
      have hi := h.conf i
      have ho := h.op x.operationId
      grind
    | _ =>
      simp at hx hy
      grind

theorem Move.dropped (h : Move π base c c') (hI : Inv c) :
    ∀ i x, c'.conf i = some x → x.status = .cancelled ∨ x.status = .expired →
      ∀ y, c'.op x.operationId = some y → y.status = .definitiveFailed := by
  have hconf := hI.conf_lt
  have hlink := hI.link
  have hdropped := hI.dropped
  intro i x hx hs y hy
  cases h with
  | forget h =>
    have hi := h.conf i
    have ho := h.op x.operationId
    grind
  | _ =>
    simp at hx hy
    grind

/-- The result a claim writes stays the confirmation's, and stays its operation's. -/
theorem Move.claimed_result (h : Move π base c c') (hI : Inv c) {i : ConfirmationId}
    {x : ConfView} (hx : c'.conf i = some x) (hs : x.status.claimed) :
    ∃ r z, x.resultId = some r ∧ c'.res r = some z ∧ z.operationId = some x.operationId := by
  have hclaimed := hI.claimed
  cases h with
  | forget h =>
    have hi := h.conf i
    have hkeeps := h.keepsResult i x
    grind
  | @claim i' x' y r hx' hpending hy hprepared hr =>
    by_cases hi : i = i'
    · have hnew : x = { x' with status := .executing, resultId := some r } := by
        simpa [hi] using hx.symm
      exact ⟨r, ⟨some x'.operationId, .outcomeUnknown⟩, by simp [hnew]⟩
    · simp [hi] at hx ⊢
      grind
  | _ =>
    simp at hx ⊢
    grind

theorem Move.claimed (h : Move π base c c') (hI : Inv c) :
    ∀ i x, c'.conf i = some x → x.status.claimed →
      (∃ r z, x.resultId = some r ∧ c'.res r = some z ∧ z.operationId = some x.operationId) ∧
        ∀ y, c'.op x.operationId = some y → y.status ≠ .prepared := by
  have hconf := hI.conf_lt
  have hlink := hI.link
  have hclaimed := hI.claimed
  intro i x hx hs
  refine ⟨h.claimed_result hI hx hs, fun y hy => ?_⟩
  cases h with
  | forget h =>
    have hi := h.conf i
    have ho := h.op x.operationId
    grind
  | _ =>
    simp at hx hy
    grind

theorem Move.executing (h : Move π base c c') (hI : Inv c) :
    ∀ o y i, c'.op o = some y → y.confirmationId = some i → y.status = .executing →
      y.resultId ≠ none := by
  have hexecuting := hI.executing
  intro o y i hy hi hs
  cases h with
  | forget h =>
    have ho := h.op o
    grind
  | _ =>
    simp at hy
    grind

theorem Move.bound (h : Move π base c c') (hI : Inv c) :
    ∀ s v y, c'.step s = some v → v.bound → c'.op v.operationId = some y →
      y.status ≠ .prepared := by
  have hbound := hI.bound
  have hstep := hI.step_lt
  intro s v y hs hv hy
  cases h with
  | forget h =>
    have hs := h.step s
    have ho := h.op v.operationId
    grind
  | _ =>
    simp at hs hy
    grind

theorem Move.unbound (h : Move π base c c') (hI : Inv c) :
    ∀ i x s v, c'.conf i = some x → x.status = .pending → c'.step s = some v →
      v.operationId = x.operationId → v.bound = false := by
  have hunbound := hI.unbound
  have hpending := hI.pending
  have hconf := hI.conf_lt
  have hstep := hI.step_lt
  intro i x s v hx hs hv ho
  cases h with
  | forget h =>
    have hi := h.conf i
    have hs := h.step s
    grind
  | _ =>
    simp at hx hv
    grind

end Operations

section Members

theorem Move.item_conf (h : Move π base c c') (hI : Inv c) :
    ∀ k t, c'.item k = some t → ∃ x, c'.conf t.confirmationId = some x ∧
      x.operationId = t.operationId ∧ x.batchId = some k.1 := by
  have hitem := hI.item_conf
  have hconf := hI.conf_lt
  intro k t ht
  cases h with
  | forget h =>
    have hk := h.item k
    have hkeeps := h.keepsMember k t ht
    grind
  | _ =>
    simp at ht ⊢
    grind

theorem Move.item_op (h : Move π base c c') (hI : Inv c) :
    ∀ k t, c'.item k = some t → ∃ y, c'.op t.operationId = some y := by
  have hitem := hI.item_op
  intro k t ht
  cases h with
  | forget h =>
    have hk := h.item k
    have hkeeps := h.keepsMember k t ht
    grind
  | _ =>
    simp at ht ⊢
    grind

theorem Move.item_batch (h : Move π base c c') (hI : Inv c) :
    ∀ k t, c'.item k = some t → ∃ v, c'.batch k.1 = some v := by
  have hitem := hI.item_batch
  intro k t ht
  cases h with
  | forget h =>
    have hk := h.item k
    have hkeeps := h.keepsMember k t ht
    grind
  | openBatch =>
    by_cases hk : k.1 = c.nextId
    · simp [hk]
    · simp only [Core.addBatch, hk, ↓reduceIte] at ht
      simpa [hk] using hitem k t ht
  | _ =>
    simp at ht ⊢
    grind

theorem nodup_map_getElem? {α β : Type} {f : α → β} {l : List α} (h : (l.map f).Nodup)
    {i j : Nat} {a b : α} (hi : l[i]? = some a) (hj : l[j]? = some b) (hab : f a = f b) :
    i = j := by
  have hi' : (l.map f)[i]? = some (f a) := by simp [hi]
  have hj' : (l.map f)[j]? = some (f a) := by simp [hj, hab]
  have hlt : i < (l.map f).length := (List.getElem?_eq_some_iff.mp hi').1
  exact (List.getElem?_inj hlt h).mp (hi'.trans hj'.symm)

theorem Move.item_unique (h : Move π base c c') (hI : Inv c) :
    ∀ k k' t t', c'.item k = some t → c'.item k' = some t' →
      t.confirmationId = t'.confirmationId → k = k' := by
  have hunique := hI.item_unique
  have hitem := hI.item_conf
  intro k k' t t' ht ht' heq
  cases h with
  | forget h =>
    have hk := h.item k
    have hk' := h.item k'
    grind
  | openBatch htuple hindex hnodup hmember =>
    have hsame := @nodup_map_getElem? _ _ _ _ hnodup k.2 k'.2
    simp at ht ht'
    grind
  | _ =>
    simp at ht ht'
    grind

theorem Move.unstarted (h : Move π base c c') (hI : Inv c) :
    ∀ k t, c'.item k = some t → t.status.started = false → t.resultId = none := by
  have hunstarted := hI.unstarted
  intro k t ht hs
  cases h with
  | forget h =>
    have hk := h.item k
    grind
  | _ =>
    simp at ht
    grind

/-- A member was a member before, or belongs to the batch this move opened. -/
theorem Move.item_old (h : Move π base c c') {k : BatchId × Nat} {t : ItemView}
    (ht : c'.item k = some t) : (∃ t₀, c.item k = some t₀ ∧ t₀.confirmationId = t.confirmationId ∧
        t₀.operationId = t.operationId ∧ (t₀.status.started → t.status.started)) ∨
      (k.1 = c.nextId ∧ ¬ c.claimed t.confirmationId) := by
  simp only [Core.claimed]
  cases h with
  | forget h =>
    have hk := h.item k
    grind
  | _ =>
    simp at ht
    grind

end Members

section Claims

theorem Move.claimed_mono (h : Move π base c c') (hI : Inv c) {i : ConfirmationId}
    (hi : c.claimed i) : c'.conf i = none ∨ c'.claimed i := by
  have hconf := hI.conf_lt
  simp only [Core.claimed] at hi ⊢
  cases h with
  | forget h =>
    have hi := h.conf i
    grind
  | _ =>
    simp
    grind

variable {k : BatchId × Nat}

theorem Move.claimed_member (h : Move π base c c') (hI : Inv c)
    {t : ItemView} (ht : c'.item k = some t) (hi : c.claimed t.confirmationId) :
    c'.claimed t.confirmationId := by
  obtain ⟨x, hx, -, -⟩ := h.item_conf hI k t ht
  exact (h.claimed_mono hI hi).resolve_left (by simp [hx])

theorem Move.claimed_before (h : Move π base c c') (hI : Inv c)
    {i : ConfirmationId} (hb : c'.before k i) (hi : c.claimed i) : c'.claimed i := by
  obtain ⟨j, t, -, ht, rfl⟩ := hb
  exact h.claimed_member hI ht hi

theorem Move.before_old (h : Move π base c c') {i : ConfirmationId}
    (hk : k.1 < c.nextId) (hb : c'.before k i) : c.before k i := by
  obtain ⟨j, t, hj, ht, rfl⟩ := hb
  rcases h.item_old ht with ⟨t₀, ht₀, hc, -⟩ | ⟨hn, -⟩
  · exact ⟨j, t₀, hj, ht₀, hc⟩
  · exact absurd hn hk.ne

/-- A confirmation becomes claimed only after the members before it. -/
theorem Move.claimed_new (h : Move π base c c') {i : ConfirmationId} (hi : c'.claimed i) :
    c.claimed i ∨ (c'.item = c.item ∧ ∀ k t, c.item k = some t → t.confirmationId = i →
      ∀ j, c.before k j → c.claimed j) := by
  cases h with
  | forget h =>
    obtain ⟨x, hx, hclaimed⟩ := hi
    have hconf := h.conf i
    exact .inl ⟨x, by grind, hclaimed⟩
  | @claim i' x y r hx hpending hy hprepared hr hlt hbefore =>
    by_cases heq : i = i'
    · exact .inr ⟨rfl, by simpa [heq] using hbefore⟩
    · exact .inl (by simpa [Core.claimed, heq] using hi)
  | _ =>
    simp [Core.claimed] at hi
    refine .inl ?_
    simp only [Core.claimed]
    grind

theorem Move.started (h : Move π base c c') (hI : Inv c) :
    ∀ k t, c'.item k = some t → t.status.started → c'.claimed t.confirmationId := by
  have hstarted := hI.started
  intro k t ht hs
  refine h.claimed_member hI ht ?_
  cases h with
  | forget h =>
    have hk := h.item k
    grind
  | _ =>
    simp at ht
    grind

theorem Move.progress (h : Move π base c c') (hI : Inv c) :
    ∀ b v, c'.batch b = some v → ∀ i, c'.before (b, v.currentIndex) i → c'.claimed i := by
  have hprogress := hI.progress
  have hbatch := hI.batch_lt
  intro b v hv i hb
  by_cases hlt : b < c.nextId
  · refine h.claimed_before hI hb ?_
    replace hb := h.before_old hlt hb
    cases h with
    | forget h =>
      have hb := h.batch b
      grind
    | _ =>
      simp at hv
      grind
  · cases h with
    | forget h =>
      have hb := h.batch b
      grind
    | openBatch htuple hindex =>
      obtain ⟨j, t, hj, -, -⟩ := hb
      simp at hv
      grind
    | _ =>
      simp at hv
      grind

theorem Move.prefix_claimed (h : Move π base c c') (hI : Inv c) :
    ∀ k t, c'.item k = some t → c'.claimed t.confirmationId →
      ∀ i, c'.before k i → c'.claimed i := by
  intro k t ht hc i hb
  rcases h.item_old ht with ⟨t₀, ht₀, heq, -⟩ | ⟨hn, hnc⟩
  · refine h.claimed_before hI hb ?_
    obtain ⟨v, hv⟩ := hI.item_batch k t₀ ht₀
    replace hb := h.before_old (hI.batch_lt _ _ hv) hb
    rcases h.claimed_new hc with hc | ⟨-, hall⟩
    · exact hI.prefix_claimed k t₀ ht₀ (heq ▸ hc) i hb
    · exact hall k t₀ ht₀ heq i hb
  · rcases h.claimed_new hc with hc | ⟨hitem, -⟩
    · exact absurd hc hnc
    · obtain ⟨v, hv⟩ := hI.item_batch k t (hitem ▸ ht)
      exact absurd hn (Nat.ne_of_lt (hI.batch_lt _ _ hv))

end Claims

theorem Move.inv (h : Move π base c c') (hI : Inv c) : Inv c' where
  conf_lt := h.conf_lt hI
  op_lt := h.op_lt hI
  res_lt := h.res_lt hI
  batch_lt := h.batch_lt hI
  step_lt := h.step_lt hI
  link := h.link hI
  owned_unique := h.owned_unique hI
  pending := h.pending hI
  dropped := h.dropped hI
  claimed := h.claimed hI
  executing := h.executing hI
  item_conf := h.item_conf hI
  item_op := h.item_op hI
  item_batch := h.item_batch hI
  item_unique := h.item_unique hI
  started := h.started hI
  unstarted := h.unstarted hI
  progress := h.progress hI
  prefix_claimed := h.prefix_claimed hI
  bound := h.bound hI
  unbound := h.unbound hI

section Reading

variable {i : ConfirmationId} {x : ConfView} {y : OpView}

theorem Inv.owned_of_claimed (hI : Inv c) (hx : c.conf i = some x) (hs : x.status.claimed) :
    ¬ c.unowned x.operationId := by
  obtain ⟨⟨r, z, -, hz, hown⟩, -⟩ := hI.claimed i x hx hs
  exact fun h => h r z hz hown

end Reading

/-- What has become of the rows a state had: no identifier below its next one is
drawn again, and a row keeps what identifies it. -/
structure Later (base : Nat) (c c' : Core) : Prop where
  nextId : c.nextId ≤ c'.nextId
  conf : ∀ i x', i < c.nextId → c'.conf i = some x' → ∃ x, c.conf i = some x ∧
    x'.operationId = x.operationId ∧ (i < base → x'.batchId = x.batchId) ∧
    (x.status ≠ .pending → x'.status ≠ .pending) ∧
    (x.status.claimed → x'.status.claimed ∧ x'.resultId = x.resultId)
  op : ∀ o y', o < c.nextId → c'.op o = some y' → ∃ y, c.op o = some y ∧
    y'.confirmationId = y.confirmationId ∧ (y.status ≠ .prepared → y'.status ≠ .prepared)
  batch : ∀ b v', b < c.nextId → c'.batch b = some v' → ∃ v, c.batch b = some v ∧
    v'.scope = v.scope ∧ v'.expiresAt = v.expiresAt
  item : ∀ k t', k.1 < c.nextId → c'.item k = some t' → ∃ t, c.item k = some t ∧
    t'.confirmationId = t.confirmationId ∧ t'.operationId = t.operationId ∧
    (t.status.started → t'.status.started)

namespace Later

theorem refl (base : Nat) (c : Core) : Later base c c where
  nextId := le_rfl
  conf := fun _ x' _ hx' => ⟨x', hx', rfl, fun _ => rfl, id, fun h => ⟨h, rfl⟩⟩
  op := fun _ y' _ hy' => ⟨y', hy', rfl, id⟩
  batch := fun _ v' _ hv' => ⟨v', hv', rfl, rfl⟩
  item := fun _ t' _ ht' => ⟨t', ht', rfl, rfl, id⟩

theorem trans (h : Later base c c') (h' : Later base c' c'') : Later base c c'' where
  nextId := h.nextId.trans h'.nextId
  conf := by
    intro i x'' hi hx''
    obtain ⟨x', hx', ho', hb', hp', hc'⟩ := h'.conf i x'' (hi.trans_le h.nextId) hx''
    obtain ⟨x, hx, ho, hb, hp, hc⟩ := h.conf i x' hi hx'
    refine ⟨x, hx, ho'.trans ho, fun hi => (hb' hi).trans (hb hi), fun hs => hp' (hp hs),
      fun hs => ?_⟩
    obtain ⟨hs', hr⟩ := hc hs
    exact ⟨(hc' hs').1, (hc' hs').2.trans hr⟩
  op := by
    intro o y'' ho hy''
    obtain ⟨y', hy', hi', hs'⟩ := h'.op o y'' (ho.trans_le h.nextId) hy''
    obtain ⟨y, hy, hi, hs⟩ := h.op o y' ho hy'
    exact ⟨y, hy, hi'.trans hi, fun h => hs' (hs h)⟩
  batch := by
    intro b v'' hb hv''
    obtain ⟨v', hv', hs', he'⟩ := h'.batch b v'' (hb.trans_le h.nextId) hv''
    obtain ⟨v, hv, hs, he⟩ := h.batch b v' hb hv'
    exact ⟨v, hv, hs'.trans hs, he'.trans he⟩
  item := by
    intro k t'' hk ht''
    obtain ⟨t', ht', hc', ho', hs'⟩ := h'.item k t'' (hk.trans_le h.nextId) ht''
    obtain ⟨t, ht, hc, ho, hs⟩ := h.item k t' hk ht'
    exact ⟨t, ht, hc'.trans hc, ho'.trans ho, fun h => hs' (hs h)⟩

end Later

section Forward

theorem Move.later_conf (h : Move π base c c') :
    ∀ i x', i < c.nextId → c'.conf i = some x' → ∃ x, c.conf i = some x ∧
      x'.operationId = x.operationId ∧ (i < base → x'.batchId = x.batchId) ∧
      (x.status ≠ .pending → x'.status ≠ .pending) ∧
      (x.status.claimed → x'.status.claimed ∧ x'.resultId = x.resultId) := by
  intro i x' hi hx'
  cases h with
  | forget h =>
    have hconf := h.conf i
    grind
  | openBatch htuple hindex hnodup hmember =>
    simp only [Core.addBatch, Option.map_eq_some_iff] at hx'
    obtain ⟨x, hx, rfl⟩ := hx'
    refine ⟨x, hx, ?_⟩
    split
    · rename_i hmem
      obtain ⟨m, hm, rfl⟩ := List.mem_map.mp hmem
      have hnew := (hmember m hm).1
      exact ⟨rfl, fun h => absurd h (Nat.not_lt.mpr hnew), id, fun h => ⟨h, rfl⟩⟩
    · exact ⟨rfl, fun _ => rfl, id, fun h => ⟨h, rfl⟩⟩
  | _ =>
    simp at hx'
    grind

theorem Move.later_op (h : Move π base c c') :
    ∀ o y', o < c.nextId → c'.op o = some y' → ∃ y, c.op o = some y ∧
      y'.confirmationId = y.confirmationId ∧ (y.status ≠ .prepared → y'.status ≠ .prepared) := by
  intro o y' ho hy'
  cases h with
  | forget h =>
    have hop := h.op o
    grind
  | _ =>
    simp at hy'
    grind

theorem Move.later_batch (h : Move π base c c') :
    ∀ b v', b < c.nextId → c'.batch b = some v' → ∃ v, c.batch b = some v ∧
      v'.scope = v.scope ∧ v'.expiresAt = v.expiresAt := by
  intro b v' hb hv'
  cases h with
  | forget h =>
    have hbatch := h.batch b
    grind
  | _ =>
    simp at hv'
    grind

theorem Move.later (h : Move π base c c') : Later base c c' where
  nextId := h.nextId_le
  conf := h.later_conf
  op := h.later_op
  batch := h.later_batch
  item := by
    intro k t' hk ht'
    rcases h.item_old ht' with ⟨t, ht, hc, ho, hs⟩ | ⟨hn, -⟩
    · exact ⟨t, ht, hc.symm, ho.symm, hs⟩
    · exact absurd hn hk.ne

end Forward

/-- The moves of one transaction, which began with `base` as its next id. -/
def Chain (π : Policy) (base : Nat) : Core → Core → Prop := Relation.ReflTransGen (Move π base)

namespace Chain

theorem refl (c : Core) : Chain π base c c := Relation.ReflTransGen.refl

theorem single (h : Move π base c c') : Chain π base c c' := Relation.ReflTransGen.single h

theorem trans (h : Chain π base c c') (h' : Chain π base c' c'') : Chain π base c c'' :=
  Relation.ReflTransGen.trans h h'

/-- What every move keeps, under the invariant, a transaction keeps. -/
theorem preserves {P : Core → Prop}
    (hmove : ∀ {c c'}, Inv c → P c → Move π base c c' → P c') (hI : Inv c) (hP : P c)
    (h : Chain π base c c') : P c' := by
  have hboth : Inv c' ∧ P c' := by
    induction h with
    | refl => exact ⟨hI, hP⟩
    | tail _ hstep ih => exact ⟨hstep.inv ih.1, hmove ih.1 ih.2 hstep⟩
  exact hboth.2

theorem inv (hI : Inv c) (h : Chain π base c c') : Inv c' :=
  h.preserves (fun _ hc hstep => hstep.inv hc) hI hI

theorem later (h : Chain π base c c') : Later base c c' := by
  induction h with
  | refl => exact Later.refl base c
  | tail _ hstep ih => exact ih.trans hstep.later

end Chain

end Lifecycle

end ClockifyAssistant
