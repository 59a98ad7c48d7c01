import Scaffold.Proofs.Consent

/-!
# The course of a claim

What a script has been told decides what it has come to. A claim has come to something only with a
last event that says so, and a creation goes on from there.
-/

namespace Scaffold

variable {Query Answer ε : Type} {path : Path} {past : List (Event Query Answer)}

namespace Directory

def verdict (path : Path) : Claim → Event Query Answer
  | .created => .called (.makeDirectory path) (.ok ())
  | .existing => .called (.isDirectory path) true

theorem unfolds_make_ok {claim : Claim}
    (h : (make path : Script Query Answer _).Unfolds past (.done (.ok claim))) :
    ∃ init, past = init ++ [verdict path claim] := by
  obtain ⟨first, second, reply, rfl, hfirst, hsecond⟩ := h.bind_done
  obtain rfl := hfirst.of_perform
  rcases reply with fault | _
  case ok =>
    obtain ⟨rfl, hclaim⟩ := hsecond.of_done
    cases hclaim
    exact ⟨[], rfl⟩
  by_cases hfault : fault = .alreadyExists
  · rw [hfault] at hsecond
    obtain ⟨third, last, found, rfl, hthird, hlast⟩ := hsecond.bind_done
    obtain rfl := hthird.of_perform
    cases found with
    | false => cases hlast.of_done.2
    | true =>
        obtain ⟨rfl, hclaim⟩ := hlast.of_done
        cases hclaim
        exact ⟨[.called (.makeDirectory path) (.error fault)], by simp [hfault, verdict]⟩
  · cases fault with
    | alreadyExists => exact absurd rfl hfault
    | _ => cases hsecond.of_done.2

theorem unfolds_make_created : (make path : Script Query Answer _).Unfolds
    [.called (.makeDirectory path) (.ok ())] (.done (.ok .created)) :=
  .call .nil

theorem unfolds_make_call {next : Except Fault Unit → Script Query Answer _}
    (h : (make path).Unfolds past (.call (.makeDirectory path) next)) : past = [] := by
  rcases h.bind_call with ⟨rest, hperform⟩ | ⟨first, second, reply, rfl, _, hsecond⟩
  · cases hperform with
    | nil => rfl
    | call hdone => cases hdone
  exfalso
  by_cases hfault : reply = .error .alreadyExists
  · rw [hfault] at hsecond
    rcases hsecond.bind_call with ⟨rest, hperform⟩ | ⟨third, last, found, rfl, _, hlast⟩
    · cases hperform with
      | call hdone => cases hdone
    · cases found <;> cases hlast.of_done.2
  · rcases reply with fault | _
    · cases fault with
      | alreadyExists => exact hfault rfl
      | _ => cases hsecond.of_done.2
    · cases hsecond.of_done.2

theorem unfolds_claim_ok {claimed : Claim}
    (h : (claim path : Script Query Answer _).Unfolds past (.done (.ok claimed))) :
    ∃ init, past = init ++ [verdict path claimed] := by
  obtain ⟨first, second, ensured, rfl, _, hsecond⟩ := h.bind_done
  cases ensured with
  | error failure => cases hsecond.of_done.2
  | ok _ =>
      obtain ⟨third, last, made, rfl, hmake, hlast⟩ := hsecond.bind_done
      obtain ⟨rfl, hmade⟩ := hlast.of_done
      cases made with
      | error fault => cases hmade
      | ok claim =>
          cases hmade
          obtain ⟨init, rfl⟩ := unfolds_make_ok hmake
          exact ⟨first ++ init, by simp⟩

/-- A claim that is about to make its own path creates it if the call succeeds. -/
theorem unfolds_claim_created {next : Except Fault Unit → Script Query Answer _}
    (h : (claim path).Unfolds past (.call (.makeDirectory path) next)) :
    (claim path).Unfolds (past ++ [.called (.makeDirectory path) (.ok ())])
      (.done (.ok .created)) := by
  rcases h.bind_call with ⟨rest, hparent⟩ | ⟨first, second, ensured, rfl, hparent, hsecond⟩
  · -- What is made before is an ancestor, and so not the path itself.
    have honly : (ensureParent path : Script Query Answer _).Only
        (Call.IsWithin (· ∈ path.ancestors) fun _ _ => False) :=
      (only_ensureParent fun _ hstem => hstem).isWithin
    cases (honly.of_unfolds hparent).1 with
    | call hself => exact absurd rfl (Path.isAncestorOf_of_mem_ancestors hself).ne
  cases ensured with
  | error failure => cases hsecond.of_done.2
  | ok _ =>
      rw [List.append_assoc]
      refine hparent.bind.append ?_
      rcases hsecond.bind_call with ⟨rest, hmake⟩ | ⟨third, last, made, rfl, hmake, hlast⟩
      · rw [unfolds_make_call hmake]
        exact unfolds_make_created.bind
      · cases hlast.of_done.2

end Directory

namespace Creation

variable {creation : Creation}

/-- The first calls of a creation are those of its claim; the others follow a claim that came to
something. -/
theorem unfolds_run_call {c : Call} {past : List (Event Path (Except ε Bool))}
    {next : c.Reply → Script Path (Except ε Bool) (Except (CreationFailure ε) Report)}
    (h : (creation.run Script.query).Unfolds past (.call c next)) :
    (∃ rest, (Directory.claim creation.destination).Unfolds past (.call c rest)) ∨
      ∃ first claimed, first <+: past ∧
        (Directory.claim creation.destination).Unfolds first (.done (.ok claimed)) := by
  cases hdry : creation.isDryRun with
  | true =>
      rw [run_of_isDryRun hdry] at h
      cases h.of_done.2
  | false =>
      rw [run_eq_bind hdry] at h
      rcases h.bind_call with hclaim | ⟨first, second, claimed, rfl, hfirst, hsecond⟩
      · exact Or.inl hclaim
      · cases claimed with
        | error failure => cases hsecond.of_done.2
        | ok claimed => exact Or.inr ⟨first, claimed, List.prefix_append _ _, hfirst⟩

/-- Before it writes anything, a creation has created its directory or has been told yes. -/
theorem run_awaits_claim (creation : Creation) :
    (creation.run Script.query : Script Path (Except ε Bool) _).Awaits
      (fun past => (∃ first, first <+: past ∧
          (Directory.claim creation.destination).Unfolds first (.done (.ok .created))) ∨
        .asked creation.destination (.ok true) ∈ past)
      (fun c => ∃ path content, c = .writeFile path content) := by
  cases hdry : creation.isDryRun with
  | true =>
      rw [run_of_isDryRun hdry]
      exact Script.awaits_done _
  | false =>
      rw [run_eq_bind hdry]
      refine Script.Awaits.bind (Directory.claim_awaits (fun _ hc => hc) _)
        fun first claimed hfirst => ?_
      rcases claimed with failure | ⟨_ | _⟩
      · exact Script.awaits_done _
      · exact .of_guard _ fun second => Or.inl ⟨first, List.prefix_append _ _, hfirst⟩
      · rw [proceed]
        refine Script.Awaits.bind (Script.query_awaits _) fun second answer hsecond => ?_
        rw [hsecond.of_query]
        rcases answer with error | ⟨_ | _⟩
        · exact Script.awaits_done _
        · exact Script.awaits_done _
        · exact .of_guard _ fun third => Or.inr (by simp)

end Creation

end Scaffold
