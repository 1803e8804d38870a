/-
What decides between a pause and a ban for reports of a minor.

The loop keeps the best reporter of each cluster in a map. All that is left
of the list in it is the set of the reports in the window: the keys are their
clusters, the value of a key is the greatest weight among its reports. The
laws of the decision are laws of that set.
-/
import Ruletka.Report.State
import Mathlib.Algebra.Order.BigOperators.Group.Finset
import Mathlib.Order.Lattice.Nat

namespace Ruletka

/-- What the report counts for. -/
def UnderageReport.points (r : UnderageReport) : Nat := if r.established then 2 else 1

/-- The report is in the window. -/
def UnderageReport.recent (now : Nat) (r : UnderageReport) : Bool :=
  now - r.at < ReportHub.underageWindowSecs

namespace ReportHub

variable {l l' : List UnderageReport} {r : UnderageReport} {ai : Bool} {now : Nat}

-- ================================================================ the map of clusters

/-- One turn of the loop. -/
def weighReport (best : Table String Nat) (r : UnderageReport) : Table String Nat :=
  best.set r.cluster (max ((best.get? r.cluster).getD 0) r.points)

theorem getD_foldl_weighReport (l : List UnderageReport) (best : Table String Nat) (c : String) :
    ((l.foldl weighReport best).get? c).getD 0
      = max ((best.get? c).getD 0)
          ((l.toFinset.filter (·.cluster = c)).sup UnderageReport.points) := by
  induction l generalizing best with
  | nil => simp
  | cons r l ih =>
      rw [List.foldl_cons, ih, List.toFinset_cons, Finset.filter_insert, weighReport,
        Table.get?_set]
      by_cases hc : c = r.cluster
      · rw [if_pos hc, if_pos hc.symm, Finset.sup_insert, hc, Option.getD_some]
        exact max_assoc _ _ _
      · rw [if_neg hc, if_neg (Ne.symm hc)]

theorem isSome_foldl_weighReport (l : List UnderageReport) (best : Table String Nat)
    (c : String) : ((l.foldl weighReport best).get? c).isSome
      ↔ (best.get? c).isSome ∨ ∃ r ∈ l, r.cluster = c := by
  induction l generalizing best with
  | nil => simp
  | cons r l ih =>
      rw [List.foldl_cons, ih, weighReport, Table.get?_set, List.exists_mem_cons_iff]
      by_cases hc : c = r.cluster
      · rw [if_pos hc]
        exact ⟨fun _ => .inr (.inl hc.symm), fun _ => .inl rfl⟩
      · rw [if_neg hc]
        exact or_congr_right (or_iff_right (Ne.symm hc)).symm

-- ================================================================ the set of reports

/-- The reports that count. -/
def counted (l : List UnderageReport) (now : Nat) : Finset UnderageReport :=
  (l.filter (UnderageReport.recent now)).toFinset

/-- The clusters of a set of reports. -/
def clustersOf (s : Finset UnderageReport) : Finset String := s.image UnderageReport.cluster

/-- The best report of a cluster. -/
def bestOf (s : Finset UnderageReport) (c : String) : Nat :=
  (s.filter (·.cluster = c)).sup UnderageReport.points

def pointsOf (s : Finset UnderageReport) : Nat := ∑ c ∈ clustersOf s, bestOf s c

theorem keys_clusterPoints (l : List UnderageReport) (now : Nat) :
    (clusterPoints l now).keys = clustersOf (counted l now) := by
  ext c
  rw [Table.mem_keys_iff]
  show ((List.foldl weighReport ∅ (l.filter (UnderageReport.recent now))).get? c).isSome ↔ _
  rw [isSome_foldl_weighReport, Table.get?_empty]
  unfold clustersOf counted
  simp only [Option.isSome_none, Bool.false_eq_true, false_or, Finset.mem_image,
    List.mem_toFinset]

theorem getD_clusterPoints (l : List UnderageReport) (now : Nat) (c : String) :
    ((clusterPoints l now).get? c).getD 0 = bestOf (counted l now) c := by
  show ((List.foldl weighReport ∅ (l.filter (UnderageReport.recent now))).get? c).getD 0 = _
  rw [getD_foldl_weighReport, Table.get?_empty]
  exact Nat.zero_max _

/-- The decision sees the set of the reports in the window, and no more. -/
theorem underageVerdict_eq (l : List UnderageReport) (ai : Bool) (now : Nat) :
    underageVerdict l ai now =
      ((underageBanClusters ≤ (clustersOf (counted l now)).card
          && underageBanPoints ≤ pointsOf (counted l now))
        || (1 ≤ (clustersOf (counted l now)).card && ai),
        (clustersOf (counted l now)).card, pointsOf (counted l now)) := by
  have hsum : ∑ c ∈ clustersOf (counted l now), ((clusterPoints l now).get? c).getD 0
      = pointsOf (counted l now) :=
    Finset.sum_congr rfl fun c _ => getD_clusterPoints l now c
  unfold underageVerdict underageAction
  dsimp only
  rw [keys_clusterPoints, hsum]

theorem underageVerdict_of_counted (h : counted l now = counted l' now) :
    underageVerdict l ai now = underageVerdict l' ai now := by
  rw [underageVerdict_eq, underageVerdict_eq, h]

theorem counted_perm (h : l.Perm l') : counted l now = counted l' now :=
  List.toFinset_eq_of_perm _ _ (h.filter _)

theorem counted_cons_of_recent (hr : r.recent now = true) :
    counted (r :: l) now = insert r (counted l now) := by
  unfold counted
  rw [List.filter_cons_of_pos hr, List.toFinset_cons]

theorem counted_cons_of_old (hr : ¬ r.recent now = true) : counted (r :: l) now = counted l now := by
  unfold counted
  rw [List.filter_cons_of_neg hr]

theorem mem_counted {q : UnderageReport} : q ∈ counted l now ↔ q ∈ l ∧ q.recent now = true := by
  unfold counted
  rw [List.mem_toFinset, List.mem_filter]

-- ==================================================================== the laws

/-- A cluster only gains from another report. -/
theorem bestOf_mono {s t : Finset UnderageReport} (h : s ⊆ t) (c : String) :
    bestOf s c ≤ bestOf t c := Finset.sup_mono (Finset.filter_subset_filter _ h)

theorem clustersOf_mono {s t : Finset UnderageReport} (h : s ⊆ t) :
    clustersOf s ⊆ clustersOf t := Finset.image_subset_image h

theorem pointsOf_mono {s t : Finset UnderageReport} (h : s ⊆ t) : pointsOf s ≤ pointsOf t :=
  calc ∑ c ∈ clustersOf s, bestOf s c
      ≤ ∑ c ∈ clustersOf s, bestOf t c := Finset.sum_le_sum fun c _ => bestOf_mono h c
    _ ≤ ∑ c ∈ clustersOf t, bestOf t c :=
        Finset.sum_le_sum_of_subset (clustersOf_mono h)

/-- A report that its cluster already has as good changes no cluster. -/
theorem bestOf_insert {s : Finset UnderageReport} {q : UnderageReport} (hq : q ∈ s)
    (hc : q.cluster = r.cluster) (hp : r.points ≤ q.points) (c : String) :
    bestOf (insert r s) c = bestOf s c := by
  unfold bestOf
  rw [Finset.filter_insert]
  by_cases hrc : r.cluster = c
  · have hmem : q ∈ s.filter (·.cluster = c) := Finset.mem_filter.mpr ⟨hq, hc.trans hrc⟩
    rw [if_pos hrc, Finset.sup_insert]
    exact sup_eq_right.mpr (hp.trans (Finset.le_sup hmem))
  · rw [if_neg hrc]

theorem clustersOf_insert {s : Finset UnderageReport} {q : UnderageReport} (hq : q ∈ s)
    (hc : q.cluster = r.cluster) : clustersOf (insert r s) = clustersOf s := by
  unfold clustersOf
  rw [Finset.image_insert, ← hc]
  exact Finset.insert_eq_of_mem (Finset.mem_image_of_mem _ hq)

theorem underageVerdict_cons {q : UnderageReport} (hq : q ∈ l) (hrecent : q.recent now = true)
    (hc : q.cluster = r.cluster) (hp : r.points ≤ q.points) :
    underageVerdict (r :: l) ai now = underageVerdict l ai now := by
  by_cases hr : r.recent now = true
  · have hmem : q ∈ counted l now := mem_counted.mpr ⟨hq, hrecent⟩
    have hpoints : pointsOf (insert r (counted l now)) = pointsOf (counted l now) := by
      unfold pointsOf
      rw [clustersOf_insert hmem hc]
      exact Finset.sum_congr rfl fun c _ => bestOf_insert hmem hc hp c
    rw [underageVerdict_eq, underageVerdict_eq, counted_cons_of_recent hr, hpoints,
      clustersOf_insert hmem hc]
  · exact underageVerdict_of_counted (counted_cons_of_old hr)

/-- What bans goes on to ban with more reports, and with the detector's
evidence. -/
theorem ban_mono {ai' : Bool} (h : counted l now ⊆ counted l' now) (hai : ai = true → ai' = true)
    (hb : (underageVerdict l ai now).1 = true) : (underageVerdict l' ai' now).1 = true := by
  have hcard := Finset.card_le_card (clustersOf_mono h)
  have hpoints := pointsOf_mono h
  rw [underageVerdict_eq] at hb ⊢
  simp only [Bool.or_eq_true, Bool.and_eq_true, decide_eq_true_eq] at hb ⊢
  cases hb with
  | inl hb => exact .inl ⟨hb.1.trans hcard, hb.2.trans hpoints⟩
  | inr hb => exact .inr ⟨hb.1.trans hcard, hai hb.2⟩

/-- One cluster is not two. -/
theorem hold_of_one_cluster {k : String} (hk : ∀ r ∈ l, r.recent now = true → r.cluster = k) :
    (underageVerdict l false now).1 = false := by
  have hsub : clustersOf (counted l now) ⊆ {k} := by
    intro c hc
    obtain ⟨r, hr, rfl⟩ := Finset.mem_image.mp hc
    obtain ⟨hmem, hrecent⟩ := mem_counted.mp hr
    exact Finset.mem_singleton.mpr (hk r hmem hrecent)
  have hcard := Finset.card_le_card hsub
  rw [Finset.card_singleton] at hcard
  rw [underageVerdict_eq, Bool.and_false, Bool.or_false, Bool.and_eq_false_iff]
  apply Or.inl
  apply decide_eq_false
  show ¬ 2 ≤ _
  omega

/-- **Weighing reports of a minor**: neither the order of the reports nor one
that its cluster already has as good matters, more evidence never turns a ban
into a pause, and a single cluster without the detector never bans. -/
theorem underageVerdict_laws (l : List UnderageReport) (ai : Bool) (now : Nat) :
    (∀ l', l.Perm l' → underageVerdict l' ai now = underageVerdict l ai now)
    ∧ (∀ l₁ l₂ r, l = l₁ ++ l₂ →
        (∃ q ∈ l, q.recent now = true ∧ q.cluster = r.cluster ∧ r.points ≤ q.points) →
        underageVerdict (l₁ ++ r :: l₂) ai now = underageVerdict l ai now)
    ∧ ((underageVerdict l ai now).1 = true →
        (∀ l₁ l₂ r, l = l₁ ++ l₂ → r.recent now = true →
          (underageVerdict (l₁ ++ r :: l₂) ai now).1 = true)
        ∧ (underageVerdict l true now).1 = true)
    ∧ (∀ k, (∀ r ∈ l, r.cluster = k) → (underageVerdict l false now).1 = false) := by
  refine ⟨fun l' h => underageVerdict_of_counted (counted_perm h).symm, ?_, ?_, ?_⟩
  · intro l₁ l₂ r hl ⟨q, hq, hrecent, hc, hp⟩
    have hperm : (l₁ ++ r :: l₂).Perm (r :: l) := hl ▸ List.perm_middle
    rw [underageVerdict_of_counted (counted_perm hperm)]
    exact underageVerdict_cons hq hrecent hc hp
  · intro hb
    refine ⟨fun l₁ l₂ r hl hr => ?_, ban_mono Finset.Subset.rfl (fun _ => rfl) hb⟩
    have hperm : (l₁ ++ r :: l₂).Perm (r :: l) := hl ▸ List.perm_middle
    refine ban_mono ?_ id hb
    rw [counted_perm hperm, counted_cons_of_recent hr]
    exact Finset.subset_insert _ _
  · exact fun k hk => hold_of_one_cluster fun r hr _ => hk r hr

/-- Two established reporters of different clusters, a minute ago. -/
def twoClusters : List UnderageReport := [⟨"a", "k1", true, 1000⟩, ⟨"b", "k2", true, 1000⟩]

/-- They ban in either order, with a weaker voice of one of the clusters among
them, and with any more evidence; the one cluster alone does not. -/
theorem underageVerdict_laws_two :
    underageVerdict twoClusters false 1060 = (true, 2, 4)
    ∧ underageVerdict twoClusters.reverse false 1060 = underageVerdict twoClusters false 1060
    ∧ underageVerdict ([⟨"a", "k1", true, 1000⟩] ++ ⟨"c", "k2", false, 1050⟩
        :: [⟨"b", "k2", true, 1000⟩]) false 1060 = underageVerdict twoClusters false 1060
    ∧ (underageVerdict ([] ++ ⟨"c", "k3", false, 1050⟩ :: twoClusters) false 1060).1 = true
    ∧ (underageVerdict twoClusters true 1060).1 = true
    ∧ (underageVerdict [⟨"a", "k1", true, 1000⟩, ⟨"c", "k1", true, 1050⟩] false 1060).1
      = false := by
  have hlaws := underageVerdict_laws twoClusters false 1060
  have hban : underageVerdict twoClusters false 1060 = (true, 2, 4) := by decide +kernel
  have hmore := hlaws.2.2.1 (by rw [hban])
  exact ⟨hban, hlaws.1 _ (List.reverse_perm _).symm,
    hlaws.2.1 [⟨"a", "k1", true, 1000⟩] _ _ rfl
      ⟨⟨"b", "k2", true, 1000⟩, by decide, by decide, rfl, by decide⟩,
    hmore.1 [] _ _ rfl (by decide), hmore.2,
    (underageVerdict_laws [⟨"a", "k1", true, 1000⟩, ⟨"c", "k1", true, 1050⟩] false 1060).2.2.2
      "k1" (by decide)⟩

end ReportHub

end Ruletka
