import Scaffold.Proofs.Calls
import Scaffold.Proofs.Silent

/-!
# What a script asks

A question is put at certain places of a script only. `Puts` says of all of them what has been
called before and how the script goes on, and a run that puts the question comes through one of
them.
-/

namespace Scaffold

namespace Script

variable {Query Answer α β σ : Type} {script : Script Query Answer α} {question : Query}
  {permits : Call → Prop} {follow : (Answer → Script Query Answer α) → Prop}

def NeverAsks (script : Script Query Answer α) (question : Query) : Prop :=
  ∀ past next, ¬ script.Unfolds past (.ask question next)

/-- Where the script puts the question, it has made permitted calls only, and goes on in a certain
way, which depends on the answer. -/
def Puts (script : Script Query Answer α) (question : Query) (permits : Call → Prop)
    (follow : (Answer → Script Query Answer α) → Prop) : Prop :=
  ∀ past next, script.Unfolds past (.ask question next) →
    (∀ c reply, .called c reply ∈ past → permits c) ∧ follow next

theorem NeverAsks.puts (h : script.NeverAsks question) : script.Puts question permits follow :=
  fun past next hunfolds => absurd hunfolds (h past next)

theorem Puts.mono {other : (Answer → Script Query Answer α) → Prop}
    (h : script.Puts question permits follow) (himp : ∀ next, follow next → other next) :
    script.Puts question permits other := by
  intro past next hunfolds
  obtain ⟨hcalls, hfollow⟩ := h past next hunfolds
  exact ⟨hcalls, himp next hfollow⟩

theorem neverAsks_done (value : α) : (done value : Script Query Answer α).NeverAsks question := by
  intro past next hunfolds
  cases hunfolds.of_done.2

theorem neverAsks_lift (script : Script Empty Empty α) :
    (script.lift : Script Query Answer α).NeverAsks question := by
  induction script with
  | done value => exact neverAsks_done value
  | call c rest ih =>
      intro past next hunfolds
      cases hunfolds with
      | call h => exact ih _ _ _ h
  | ask query _ => exact query.elim

theorem neverAsks_perform (c : Call) :
    (perform c : Script Query Answer c.Reply).NeverAsks question :=
  neverAsks_lift (perform c)

theorem neverAsks_query {other : Query} (hne : other ≠ question) :
    (query other : Script Query Answer Answer).NeverAsks question := by
  intro past next hunfolds
  cases hunfolds with
  | nil => exact hne rfl
  | ask h => exact neverAsks_done _ _ _ h

theorem NeverAsks.bind {next : α → Script Query Answer β} (hscript : script.NeverAsks question)
    (hnext : ∀ value, (next value).NeverAsks question) : (script >>= next).NeverAsks question := by
  intro past last hunfolds
  rcases hunfolds.bind_ask with ⟨rest, hrest, _⟩ | ⟨first, second, value, _, _, hsecond⟩
  · exact hscript past rest hrest
  · exact hnext value second last hsecond

theorem NeverAsks.bind_puts {next : α → Script Query Answer β}
    {follow : (Answer → Script Query Answer β) → Prop} (hscript : script.NeverAsks question)
    (honly : script.Only permits) (hnext : ∀ value, (next value).Puts question permits follow) :
    (script >>= next).Puts question permits follow := by
  intro past last hunfolds
  rcases hunfolds.bind_ask with ⟨rest, hrest, _⟩ | ⟨first, second, value, rfl, hfirst, hsecond⟩
  · exact absurd hrest (hscript past rest)
  · obtain ⟨hcalls, hfollow⟩ := hnext value second last hsecond
    refine ⟨fun c reply hmem => ?_, hfollow⟩
    rcases List.mem_append.mp hmem with hmem | hmem
    · exact (honly.of_unfolds hfirst).2 c reply hmem
    · exact hcalls c reply hmem

theorem Puts.bind {next : α → Script Query Answer β}
    {other : (Answer → Script Query Answer β) → Prop}
    (hscript : script.Puts question permits follow)
    (hnext : ∀ value, (next value).NeverAsks question)
    (himp : ∀ rest, follow rest → other fun answer => rest answer >>= next) :
    (script >>= next).Puts question permits other := by
  intro past last hunfolds
  rcases hunfolds.bind_ask with ⟨rest, hrest, rfl⟩ | ⟨first, second, value, _, _, hsecond⟩
  · obtain ⟨hcalls, hfollow⟩ := hscript past rest hrest
    exact ⟨hcalls, himp rest hfollow⟩
  · exact absurd hsecond (hnext value second last)

def questions (answer : Query → σ → Answer × σ) :
    Script Query Answer α → Disk → σ → List (Query × σ)
  | done _, _, _ => []
  | call c next, disk, state =>
    (next (c.perform disk).1).questions answer (c.perform disk).2 state
  | ask query next, disk, state =>
    (query, state) :: (next (answer query state).1).questions answer disk (answer query state).2

/-- A question of a run cuts it in two: the script has unfolded up to the question, and the run goes
on from the answer. -/
theorem exists_of_mem_questions {answer : Query → σ → Answer × σ} {disk : Disk} {state now : σ}
    (h : (question, now) ∈ script.questions answer disk state) :
    ∃ past next between, script.Unfolds past (.ask question next) ∧
      script.events answer disk state = past ++ .asked question (answer question now).1 ::
        (next (answer question now).1).events answer between (answer question now).2 ∧
      script.run answer disk state =
        (next (answer question now).1).run answer between (answer question now).2 := by
  induction script generalizing disk state with
  | done value => cases h
  | call c next ih =>
      obtain ⟨past, rest, between, hunfolds, hevents, hrun⟩ := ih _ h
      refine ⟨_ :: past, rest, between, .call hunfolds, ?_, hrun⟩
      rw [events, hevents]
      rfl
  | ask query next ih =>
      -- The question is the one that is put now, or one that is put further on.
      rcases List.mem_cons.mp h with heq | h
      · cases heq
        exact ⟨[], next, disk, .nil, rfl, rfl⟩
      · obtain ⟨past, rest, between, hunfolds, hevents, hrun⟩ := ih _ h
        refine ⟨_ :: past, rest, between, .ask hunfolds, ?_, hrun⟩
        rw [events, hevents]
        rfl

end Script

end Scaffold
