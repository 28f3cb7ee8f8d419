import Playground.Proofs.Graph.Edges
import Playground.Proofs.Named

/-!
# Levels by counting

Levels are found by counting down, for each package, the dependencies that are not done.  Between two
levels the count of a package is the number of its edges from packages that remain (`IsCounted`), so
it is due exactly when no dependency of it remains.  The levels can therefore be had without any
counts (`wavesFrom`), and nothing else about them is used later (`waves_eq`).
-/

namespace Playground.ImportGraph

variable {g : ImportGraph} {counts : Named Nat} {path x d : String} {remaining level : List String}

/-! ### Levels without counts -/

/-- Whether no dependency of a package is among those that remain. -/
def isReady (g : ImportGraph) (remaining : List String) (path : String) : Bool :=
  g.edges.all fun e => e.dependent ≠ path || !remaining.contains e.dependency

/-- The packages whose dependencies are all done. -/
def readyIn (g : ImportGraph) (remaining : List String) : List String :=
  remaining.filter (g.isReady remaining)

/-- The packages that wait for one that remains. -/
def blockedIn (g : ImportGraph) (remaining : List String) : List String :=
  remaining.filter fun path => !g.isReady remaining path

theorem length_blockedIn_lt (h : g.readyIn remaining ≠ []) :
    (g.blockedIn remaining).length < remaining.length := by
  have : 0 < (g.readyIn remaining).length := List.length_pos_iff.2 h
  have := View.length_filter_add remaining (g.isReady remaining)
  simp only [readyIn, blockedIn] at *
  omega

/-- The levels of the packages that remain; none when some of them form a cycle. -/
def wavesFrom (g : ImportGraph) (remaining : List String) : Option (List (List String)) :=
  if remaining = [] then some []
  else if h : g.readyIn remaining = [] then none
  else
    have := length_blockedIn_lt h
    (wavesFrom g (g.blockedIn remaining)).map (sortPaths (g.readyIn remaining) :: ·)
  termination_by remaining.length

theorem isReady_iff :
    g.isReady remaining x = true ↔ ∀ d, g.DependsOn x d → d ∉ remaining := by
  unfold isReady
  rw [List.all_eq_true]
  constructor
  · intro h d hd hmem
    have := h _ hd
    simp [hmem] at this
  · rintro h ⟨d, p⟩ he
    by_cases hp : p = x
    · subst hp
      simp [h d he]
    · simp [hp]

/-! ### Counts -/

/-- The number of edges that lead to a package from packages that remain. -/
def countIn (g : ImportGraph) (remaining : List String) (path : String) : Nat :=
  g.edges.countP fun e => e.dependent = path ∧ e.dependency ∈ remaining

/-- Every package is counted with its dependencies that remain. -/
def IsCounted (g : ImportGraph) (counts : Named Nat) (remaining : List String) : Prop :=
  ∀ path ∈ g.nodes, counts[path]? = some (g.countIn remaining path)

theorem countIn_eq_zero_iff : g.countIn remaining x = 0 ↔ g.isReady remaining x = true := by
  rw [countIn, List.countP_eq_zero, isReady_iff]
  constructor
  · intro h d hd hmem
    exact h _ hd (by simp [hmem])
  · intro h e he hcounted
    obtain ⟨rfl, hmem⟩ := of_decide_eq_true hcounted
    exact h e.dependency he hmem

theorem countIn_cons (hd : d ∉ level) :
    g.countIn (d :: level) x = (g.dependentsOf d).count x + g.countIn level x := by
  unfold countIn dependentsOf
  induction g.edges with
  | nil => rfl
  | cons e edges ih =>
    by_cases hdependency : e.dependency = d
    · subst hdependency
      by_cases hx : e.dependent = x <;> simp [hd, hx] at ih ⊢ <;> omega
    · by_cases hx : e.dependent = x <;> simp [hdependency, hx, List.countP_cons] at ih ⊢ <;> omega

/-- What remains is what is due and what waits. -/
theorem countIn_eq_add (g : ImportGraph) (remaining : List String) (due : String → Bool)
    (x : String) :
    g.countIn remaining x =
      g.countIn (remaining.filter due) x + g.countIn (remaining.filter fun p => !due p) x := by
  unfold countIn
  rw [List.countP_eq_countP_filter_add _ _ fun e : ImportEdge => due e.dependency,
    List.countP_filter, List.countP_filter]
  congr 2 <;> funext e <;> simp [Bool.and_assoc]

/-! ### Counting down -/

theorem getElem?_dependencyCounts_foldl {paths : List String} :
    (paths.foldl (fun (counts : Named Nat) path =>
      counts.insert path (g.dependenciesOf path).length) counts)[x]? =
      if x ∈ paths then some (g.dependenciesOf x).length else counts[x]? := by
  induction paths generalizing counts with
  | nil => simp
  | cons path paths ih =>
    rw [List.foldl_cons, ih, Named.getElem?_insert]
    by_cases hx : x = path <;> simp_all

theorem isCounted_dependencyCounts : g.IsCounted g.dependencyCounts g.nodes := by
  intro path hpath
  have hcount : (g.dependenciesOf path).length = g.countIn g.nodes path := by
    rw [dependenciesOf, List.length_map, ← List.countP_eq_length_filter, countIn]
    refine List.countP_congr fun e he => ?_
    simp [g.dependency_mem e he]
  rw [dependencyCounts, getElem?_dependencyCounts_foldl, if_pos hpath, hcount]

theorem getElem?_foldl_countDown (paths : List String) :
    (paths.foldl countDown counts)[x]? = counts[x]?.map (· - paths.count x) := by
  induction paths generalizing counts with
  | nil => simp
  | cons path paths ih =>
    rw [List.foldl_cons, ih, countDown, Std.ExtTreeMap.getElem?_modify, List.count_cons]
    by_cases hx : path = x
    · subst hx
      rw [if_pos Std.ReflCmp.compare_self, Option.map_map, if_pos (beq_self_eq_true path)]
      congr 1
      funext n
      simp only [Function.comp_apply]
      omega
    · rw [if_neg fun he => hx (Std.LawfulEqOrd.compare_eq_iff_eq.1 he), if_neg (by simpa using hx),
        Nat.add_zero]

/-- A level that is done is taken from the counts of what it leads to, each edge once. -/
theorem getElem?_countDone (hlevel : level.Nodup) :
    (g.countDone counts level)[x]? = counts[x]?.map (· - g.countIn level x) := by
  unfold countDone
  induction level generalizing counts with
  | nil => simp [countIn]
  | cons d level ih =>
    obtain ⟨hd, hlevel⟩ := List.nodup_cons.1 hlevel
    rw [List.foldl_cons, ih hlevel, getElem?_foldl_countDown, Option.map_map, countIn_cons hd]
    congr 1
    funext n
    simp only [Function.comp_apply]
    omega

theorem IsCounted.isDue_eq (h : g.IsCounted counts remaining) (hx : x ∈ g.nodes) :
    isDue counts x = g.isReady remaining x := by
  rw [Bool.eq_iff_iff, ← countIn_eq_zero_iff, isDue, h x hx, decide_eq_true_eq, Option.some.injEq]

theorem IsCounted.countDone (h : g.IsCounted counts remaining) (hnodup : remaining.Nodup) :
    g.IsCounted (g.countDone counts (dueIn counts remaining)) (waitingIn counts remaining) := by
  intro path hpath
  have hsum := countIn_eq_add g remaining (isDue counts) path
  have hlevel : (dueIn counts remaining).Nodup := hnodup.filter _
  rw [getElem?_countDone hlevel, h path hpath, Option.map_some, hsum, dueIn, waitingIn,
    Nat.add_sub_cancel_left]

/-! ### The levels -/

theorem levelsFrom_eq (h : g.IsCounted counts remaining) (hnodes : ∀ p ∈ remaining, p ∈ g.nodes)
    (hnodup : remaining.Nodup) : g.levelsFrom counts remaining = g.wavesFrom remaining := by
  fun_induction levelsFrom g counts remaining with
  | case1 => rw [wavesFrom, if_pos rfl]
  | case2 counts remaining hne hdue =>
    have hready : g.readyIn remaining = [] := by
      rw [← hdue, dueIn, readyIn]
      exact List.filter_congr fun p hp => (h.isDue_eq (hnodes p hp)).symm
    rw [wavesFrom, if_neg hne, dif_pos hready]
  | case3 counts remaining hne hdue hlt ih =>
    have hready : dueIn counts remaining = g.readyIn remaining :=
      List.filter_congr fun p hp => h.isDue_eq (hnodes p hp)
    have hblocked : waitingIn counts remaining = g.blockedIn remaining :=
      List.filter_congr fun p hp => by rw [h.isDue_eq (hnodes p hp)]
    have hrest := ih (h.countDone hnodup) (fun p hp => hnodes p (List.mem_filter.1 hp).1)
      (hnodup.filter _)
    rw [hrest, hready, hblocked, wavesFrom.eq_def g remaining, if_neg hne,
      dif_neg (hready ▸ hdue)]

/-- The levels of a graph are those that can be had without counts. -/
theorem waves_eq (g : ImportGraph) : g.waves = g.wavesFrom g.nodes :=
  levelsFrom_eq isCounted_dependencyCounts (fun _ h => h) g.nodup

end Playground.ImportGraph
