import AggregateAudit.Session

/-!
# What became of the findings of a session

A session hands findings to three sinks, sorts two of them and moves everything from one to the
other.  This file says that nothing is lost, made up or changed on the way: at every time the three
sinks together hold what was reported up to then (`Session.run_keeps_findings`).

The second side is a history that knows nothing of what the sinks hold.  It is the row of all
findings that the steps report (`SessionStep.reports`), each with the sink that it was handed to,
and since sinks are emptied into each other only as a whole, where a finding is in the end is
decided by following its sink through the later steps (`SessionStep.placeAfter`).

One step gives the induction: what the sinks hold behind it is what they held, moved, and what the
step reports (`Session.holdings_step`).  So with any number of steps the sinks hold what the history
says (`Session.holdings_run`).  The numbers of a report are then counted on either side.
-/

namespace AggregateAudit

/-! ## History -/

namespace SessionStep

/-- The engine that is in use after a step. -/
def engineAfter (e : Engine) : SessionStep → Engine
  | useEngine e' => e'
  | _ => e

/-- The findings that a step reports, each with the sink that is to get it. -/
def reports (e : Engine) : SessionStep → List (Sink × Finding)
  | useEngine _ => []
  | declare sink d => (e.check d).map (sink, ·)
  | report sink f => [(sink, f)]
  | setFiles _ _ => []
  | sort _ => []
  | extend _ => []

/-- Where a step leaves what is in a sink.  Only extending a report moves anything. -/
def moves : SessionStep → Sink → Sink
  | extend .first, .second => .first
  | extend .second, .first => .second
  | _, sink => sink

/-- Where steps leave what is in a sink. -/
def placeAfter (steps : List SessionStep) (sink : Sink) : Sink :=
  steps.foldl (fun sink a => a.moves sink) sink

/-- All findings that steps report, in their order, each with the sink where it is in the end. -/
def history (e : Engine) : List SessionStep → List (Sink × Finding)
  | [] => []
  | a :: steps =>
    (a.reports e).map (Prod.map (placeAfter steps) id) ++ history (a.engineAfter e) steps

/-- The findings of a history that are in a sink in the end. -/
def arrived (history : List (Sink × Finding)) (sink : Sink) : List Finding :=
  (history.filter (·.1 = sink)).map (·.2)

theorem arrived_append (h h' : List (Sink × Finding)) (sink : Sink) :
    arrived (h ++ h') sink = arrived h sink ++ arrived h' sink := by
  rw [arrived, List.filter_append, List.map_append]
  rfl

theorem arrived_map (place sink : Sink) (fs : List Finding) :
    arrived (fs.map (place, ·)) sink = if place = sink then fs else [] := by
  by_cases h : place = sink <;> simp [arrived, List.filter_map, h, Function.comp_def]

end SessionStep

/-! ## Holdings -/

namespace Session

/-- What a sink holds. -/
def findings (s : Session) : Sink → List Finding
  | .first => s.first.findings
  | .second => s.second.findings
  | .list => s.list

/-- What the sinks hold, each finding with the sink that holds it. -/
def holdings (s : Session) : List (Sink × Finding) :=
  s.first.findings.map (.first, ·) ++ s.second.findings.map (.second, ·) ++ s.list.map (.list, ·)

/-- A session, step by step. -/
def run (s : Session) (steps : List SessionStep) : Session := steps.foldl step s

theorem arrived_holdings (s : Session) (sink : Sink) :
    SessionStep.arrived s.holdings sink = s.findings sink := by
  simp only [holdings, SessionStep.arrived_append, SessionStep.arrived_map]
  cases sink <;> simp [findings]

theorem map_snd_holdings (s : Session) :
    s.holdings.map (·.2) = s.first.findings ++ s.second.findings ++ s.list := by
  simp [holdings, Function.comp_def]

/-- A sink that is handed findings puts them behind what it holds, whichever sink it is, and no
other sink takes note of them. -/
theorem findings_collect (s : Session) (sink other : Sink) (fs : List Finding) :
    (s.collect sink fs).findings other =
      if other = sink then s.findings other ++ fs else s.findings other := by
  cases sink <;> cases other <;> rfl

/-- Findings may be handed over one by one. -/
theorem foldl_collect (sink : Sink) (fs : List Finding) (s : Session) :
    fs.foldl (fun s f => s.collect sink [f]) s = s.collect sink fs := by
  induction fs generalizing s with
  | nil => cases sink <;> simp [collect, Report.add]
  | cons f fs ih =>
    rw [List.foldl_cons, ih]
    cases sink <;> simp [collect, Report.add]

/-! ## Steps -/

theorem holdings_collect (s : Session) (sink : Sink) (fs : List Finding) :
    (s.collect sink fs).holdings.Perm (s.holdings ++ fs.map (sink, ·)) := by
  rw [List.perm_iff_count]
  intro p
  cases sink <;> simp [holdings, collect, Report.add, List.count_append] <;> omega

theorem holdings_onReport (s : Session) (sink : Sink) {f : Report → Report}
    (h : ∀ r, (f r).findings.Perm r.findings) : (s.onReport sink f).holdings.Perm s.holdings := by
  cases sink with
  | first => exact (((h s.first).map _).append_right _).append_right _
  | second => exact (((h s.second).map _).append_left _).append_right _
  | list => exact .refl _

theorem engine_step (s : Session) (a : SessionStep) :
    (s.step a).engine = a.engineAfter s.engine := by
  cases a with
  | useEngine e => rfl
  | declare sink d => cases sink <;> rfl
  | report sink f => cases sink <;> rfl
  | setFiles sink n => cases sink <;> rfl
  | sort sink => cases sink <;> rfl
  | extend sink => cases sink <;> rfl

theorem map_holdings (s : Session) (g : Sink → Sink) :
    s.holdings.map (Prod.map g id) =
      s.first.findings.map (g .first, ·) ++ s.second.findings.map (g .second, ·)
        ++ s.list.map (g .list, ·) := by
  simp [holdings, Function.comp_def]

/-- **Behind a step the sinks hold what they held, where the step has moved it, and what it
reports.** -/
theorem holdings_step (s : Session) (a : SessionStep) :
    (s.step a).holdings.Perm (s.holdings.map (Prod.map a.moves id) ++ a.reports s.engine) := by
  rw [map_holdings]
  cases a with
  | useEngine e =>
    rw [SessionStep.reports, List.append_nil]
    exact .refl _
  | declare sink d => exact s.holdings_collect sink (s.engine.check d)
  | report sink f => exact s.holdings_collect sink [f]
  | setFiles sink n =>
    rw [SessionStep.reports, List.append_nil]
    exact s.holdings_onReport sink fun r => .refl _
  | sort sink =>
    rw [SessionStep.reports, List.append_nil]
    exact s.holdings_onReport sink fun r => List.mergeSort_perm _ _
  | extend sink =>
    rw [SessionStep.reports, List.append_nil]
    cases sink with
    | first =>
      rw [holdings, step, Report.extend, List.map_append, List.map_nil, List.append_nil]
      exact .refl _
    | second =>
      rw [holdings, step, Report.extend, List.map_append, List.map_nil, List.nil_append]
      exact List.perm_append_comm.append_right _
    | list => exact .refl _

/-- With any number of steps the sinks hold what they held, where the steps have moved it, and what
the history of the steps says. -/
theorem holdings_run (s : Session) (steps : List SessionStep) :
    (s.run steps).holdings.Perm
      (s.holdings.map (Prod.map (SessionStep.placeAfter steps) id)
        ++ SessionStep.history s.engine steps) := by
  induction steps generalizing s with
  | nil =>
    have hplace : SessionStep.placeAfter [] = id := rfl
    simp [run, SessionStep.history, hplace]
  | cons a steps ih =>
    have hplace : Prod.map (SessionStep.placeAfter (a :: steps)) id =
        Prod.map (SessionStep.placeAfter steps) id ∘ (Prod.map a.moves id : Sink × Finding → _) :=
      rfl
    -- the later steps move what the first one reports along with what was there before
    have hrest := ih (s.step a)
    have hstep := (s.holdings_step a).map (Prod.map (SessionStep.placeAfter steps) id)
    rw [engine_step] at hrest
    rw [List.map_append, List.map_map, ← hplace] at hstep
    rw [SessionStep.history, ← List.append_assoc]
    exact hrest.trans (hstep.append_right _)

end Session

/-! ## Numbers -/

/-- Whether the numbers of a report are those of a row of findings. -/
structure Report.Counts (r : Report) (fs : List Finding) : Prop where
  /-- Every finding is counted under one severity. -/
  total : r.count .error + r.count .warning + r.count .info = r.findings.length
  count_eq : ∀ s, r.count s = fs.countP fun f => f.severity = s
  hasErrors_iff : r.hasErrors = true ↔ 0 < r.count .error

theorem Report.counts_of_perm {r : Report} {fs : List Finding} (h : r.findings.Perm fs) :
    r.Counts fs where
  total := by
    rw [count, count, count]
    induction r.findings with
    | nil => rfl
    | cons f rest ih =>
      simp only [List.countP_cons, List.length_cons]
      cases f.severity <;> simp <;> omega
  count_eq s := h.countP_eq _
  hasErrors_iff := by
    rw [hasErrors, count, List.countP_pos_iff, List.any_eq_true]

/-! ## Sessions -/

/-- **No finding is lost, made up or changed.**  A session begins with empty sinks and an engine of
any rules and any matcher.  After any steps, the sinks together hold the findings that the steps
have reported, and each of them holds those that were handed to it or moved to it.  A declaration
adds to its sink what the engine finds in it, in that order, and nothing to the others; that is the
same for reports and for the plain list, and the same as reporting the findings one by one.  The
numbers of the two reports are those of what has reached them. -/
theorem Session.run_keeps_findings (e : Engine) (steps : List SessionStep) :
    let s := run { engine := e } steps
    let history := SessionStep.history e steps
    (s.first.findings ++ s.second.findings ++ s.list).Perm (history.map (·.2))
      ∧ (∀ sink, (s.findings sink).Perm (SessionStep.arrived history sink))
      ∧ (∀ sink d,
          (∀ other, (s.step (.declare sink d)).findings other =
            if other = sink then s.findings other ++ s.engine.check d else s.findings other)
          ∧ s.step (.declare sink d) =
            (s.engine.check d).foldl (fun t f => t.step (.report sink f)) s)
      ∧ s.first.Counts (SessionStep.arrived history .first)
      ∧ s.second.Counts (SessionStep.arrived history .second) := by
  intro s history
  have hholdings : s.holdings.Perm history := by
    simpa [holdings] using holdings_run { engine := e } steps
  have hsink : ∀ sink, (s.findings sink).Perm (SessionStep.arrived history sink) := by
    intro sink
    rw [← arrived_holdings]
    exact (hholdings.filter _).map _
  refine ⟨?_, hsink, fun sink d => ⟨?_, ?_⟩, ?_, ?_⟩
  · rw [← map_snd_holdings]
    exact hholdings.map _
  · exact fun other => s.findings_collect sink other (s.engine.check d)
  · exact (foldl_collect sink (s.engine.check d) s).symm
  · exact Report.counts_of_perm (hsink .first)
  · exact Report.counts_of_perm (hsink .second)

end AggregateAudit
