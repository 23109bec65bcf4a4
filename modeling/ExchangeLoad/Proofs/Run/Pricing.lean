import ExchangeLoad.Proofs.Run.Rises

/-!
The price of the day. No level is raised twice, so that there is one moment at which a level was reached,
and one price of that day, by which the whole batch goes that the level brought.
-/

namespace ExchangeLoad.Run

/-- The price of the day: the one that the earliest registered investor saw last, and 100 where there is
    no such investor or it has seen none. -/
def PriceOfDay (r : Run) (price : Int) : Prop :=
  (∃ i v, r.registry.first? = some i ∧ r.investors[i]? = some v ∧ v.price ≠ 0 ∧ price = v.price) ∨
  price = 100 ∧ ∀ i v, r.registry.first? = some i → r.investors[i]? = some v → v.price = 0

/-- On the way from one run to another, a step raised the level to `level` at the price of the day. -/
def RoseAt (scene : Scene) (kind : Step → Prop) (r t : Run) (level : Nat) (price : Int) : Prop :=
  ∃ s a s', Becomes scene kind r s ∧ kind a ∧ s.step scene a = some s' ∧ Becomes scene kind s' t ∧
    s.level + 1 = level ∧ s'.level = level ∧ s.PriceOfDay price

variable {scene : Scene} {kind : Step → Prop} {c : Nat} {r s t : Run} {a : Step} {floor : Int} {w : Weighing}

theorem priceOfDay_iff {price : Int} : r.PriceOfDay price ↔ price = r.marketPrice := by
  unfold PriceOfDay marketPrice
  cases hfirst : r.registry.first? with
  | none => simp [Batch.initialPrice]
  | some i =>
    cases hv : r.investors[i]? with
    | none =>
      have hnone : ∀ j v, i = j → r.investors[j]? = some v → v.price = 0 := by
        rintro j v rfl hj
        cases hv.symm.trans hj
      simpa [hv, Batch.initialPrice] using fun _ => hnone
    | some v =>
      by_cases hprice : v.price = 0
      · have hunseen : ∀ j u, i = j → r.investors[j]? = some u → u.price = 0 := by
          rintro j u rfl hj
          obtain rfl := Option.some.inj (hv.symm.trans hj)
          exact hprice
        simpa [hv, hprice, Batch.initialPrice] using fun _ => hunseen
      · simp [hv, hprice]

/-- Each rise of the level took place at the price of its day. -/
theorem Becomes.roseAt {ceiling : Int} {capacity drawn : Nat}
    (h : Becomes scene kind (fresh floor ceiling capacity drawn) r) : ∀ w ∈ r.census.weighings, ∀ price,
      w.rose = some price → RoseAt scene kind (fresh floor ceiling capacity drawn) r (w.level + 1) price := by
  induction h with
  | refl => simp [census, fresh]
  | @step s t a hs ha hstep ih =>
    have hold : ∀ w ∈ s.census.weighings, ∀ price, w.rose = some price →
        RoseAt scene kind (fresh floor ceiling capacity drawn) t (w.level + 1) price := by
      intro w hw price hrose
      obtain ⟨u, b, u', hu, hb, hub, hu', hrest⟩ := ih w hw price hrose
      exact ⟨u, b, u', hu, hb, hub, .step a hu' ha hstep, hrest⟩
    have hprompt := hs.prompt (fresh_prompt floor ceiling capacity drawn)
    obtain ⟨c, x, y, hx, hturn⟩ | hidle := (step_effect hprompt hstep).calls
    · have hrole := hs.wide.ascent.inRole c x hx
      obtain ⟨hsame, _⟩ | ⟨v, hlook⟩ := hturn.look hrole
      · rw [(Prod.mk.inj hsame).2]
        exact hold
      · rw [hlook.weighings, List.forall_mem_append, List.forall_mem_singleton]
        refine ⟨hold, fun price hrose => ?_⟩
        have hmarket := hlook.rose
        rw [hrose] at hmarket
        split at hmarket
        · obtain rfl := Option.some.inj hmarket
          have hlevel : t.level = s.level + _ := hlook.levelAfter
          rw [hrose] at hlevel
          refine ⟨s, a, t, hs, ha, hstep, .refl t, by rw [hlook.level], ?_, priceOfDay_iff.mpr rfl⟩
          rw [hlevel, hlook.level]
          rfl
        · cases hmarket
    · rw [hidle.weighings]
      exact hold
  | @pass s ms hs ih =>
    intro w hw price hrose
    obtain ⟨u, b, u', hu, hb, hub, hu', hrest⟩ := ih w hw price hrose
    exact ⟨u, b, u', hu, hb, hub, .pass ms hu', hrest⟩

theorem Ascent.nodup_levels (h : r.Ascent floor) : (r.census.rises.map Weighing.level).Nodup := by
  rw [h.rises]
  exact List.nodup_range

/-- No level was raised twice. -/
theorem Ascent.rise_unique {v : Weighing} (h : r.Ascent floor) (hv : v ∈ r.census.rises)
    (hw : w ∈ r.census.rises) (hlevel : v.level = w.level) : v = w :=
  List.inj_on_of_nodup_map h.nodup_levels hv hw hlevel

/-- A look at the level stays on record. -/
theorem Advance.weighings (h : Advance scene a r t) (hr : r.Ascent floor) :
    r.census.weighings <+: t.census.weighings := by
  obtain ⟨c, x, y, hx, hturn⟩ | hidle := h.effect.calls
  · obtain ⟨hsame, _⟩ | ⟨w, hlook⟩ := hturn.look (hr.inRole c x hx)
    · rw [(Prod.mk.inj hsame).2]
    · rw [hlook.weighings]
      exact List.prefix_append _ _
  · rw [hidle.weighings]

/-- There is one price of the day for a level. -/
theorem RoseAt.price_eq {ceiling price other : Int} {capacity drawn : Nat}
    (h : RoseAt scene kind (fresh floor ceiling capacity drawn) r (w.level + 1) other)
    (hascent : r.Ascent floor) (hw : w ∈ r.census.rises) (hprice : w.rose = some price) : other = price := by
  obtain ⟨s, a, t, hs, _, hstep, htr, hlevel, hlevel', hday⟩ := h
  have hbefore := hs.wide
  have hprompt := hs.prompt (fresh_prompt floor ceiling capacity drawn)
  have hadvance := step_advance hprompt hstep
  obtain hsame | ⟨c, hraise⟩ := hadvance.raise_or_level_eq hbefore.attributed hbefore.ascent
  · omega
  obtain ⟨x, o, _, _, _, _, hweighings⟩ := hraise.tick
  -- The look of that step is still on record, and no other one raised this level.
  have hkept : r.Ascent floor ∧ t.census.weighings <+: r.census.weighings :=
    htr.wide.keeps (fun u => u.Ascent floor ∧ t.census.weighings <+: u.census.weighings) (fun _ => trivial)
      (fun _ _ _ _ hu hu' => ⟨hu.1.advance hu', hu.2.trans (hu'.weighings hu.1)⟩)
      (hadvance.effect.prompt hprompt) ⟨hbefore.ascent.advance hadvance, List.prefix_refl _⟩
  have hmem : ⟨c, s.level, o.score, s.tracker.errors, some s.marketPrice⟩ ∈ r.census.rises :=
    List.mem_filter.mpr ⟨hkept.2.subset (by simp [census, hweighings]), rfl⟩
  obtain rfl := hascent.rise_unique hmem hw (Nat.succ.inj hlevel)
  obtain rfl := Option.some.inj hprice
  exact priceOfDay_iff.mp hday

end ExchangeLoad.Run
