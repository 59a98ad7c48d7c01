import Scaffold.Creation
import Scaffold.Proofs.Ancestry

/-!
# What a script can call

A script is a tree: it branches on what it is told. `Only` says of the whole tree that certain calls
are all that it can make, and `Unfolds` follows one way through it, event by event. A script that
makes certain calls only has made no others, however it went.
-/

namespace Scaffold

inductive Event (Query Answer : Type) where
  | called (call : Call) (reply : call.Reply)
  | asked (query : Query) (answer : Answer)

namespace Script

variable {Query Answer α β : Type} {permits allows : Call → Prop}
  {script rest : Script Query Answer α} {past : List (Event Query Answer)}

inductive Only (permits : Call → Prop) : Script Query Answer α → Prop where
  | done {value : α} : Only permits (.done value)
  | call {c : Call} {next : c.Reply → Script Query Answer α} (hcall : permits c)
      (hnext : ∀ reply, Only permits (next reply)) : Only permits (.call c next)
  | ask {query : Query} {next : Answer → Script Query Answer α}
      (hnext : ∀ answer, Only permits (next answer)) : Only permits (.ask query next)

namespace Only

theorem mono (h : script.Only permits) (himp : ∀ c, permits c → allows c) :
    script.Only allows := by
  induction h with
  | done => exact .done
  | call hcall _ ih => exact .call (himp _ hcall) ih
  | ask _ ih => exact .ask ih

theorem all (script : Script Query Answer α) : script.Only fun _ => True := by
  induction script with
  | done value => exact .done
  | call c next ih => exact .call trivial ih
  | ask query next ih => exact .ask ih

theorem bind {next : α → Script Query Answer β} (h : script.Only permits)
    (hnext : ∀ value, (next value).Only permits) : (script >>= next).Only permits := by
  induction h with
  | done => exact hnext _
  | call hcall _ ih => exact .call hcall ih
  | ask _ ih => exact .ask ih

theorem perform {c : Call} (h : permits c) :
    (Script.perform c : Script Query Answer c.Reply).Only permits :=
  .call h fun _ => .done

theorem query (question : Query) :
    (Script.query question : Script Query Answer Answer).Only permits :=
  .ask fun _ => .done

end Only

/-! ### The way through a script -/

inductive Unfolds : Script Query Answer α → List (Event Query Answer) →
    Script Query Answer α → Prop where
  | nil {script : Script Query Answer α} : Unfolds script [] script
  | call {c : Call} {reply : c.Reply} {next : c.Reply → Script Query Answer α}
      {past : List (Event Query Answer)} {rest : Script Query Answer α}
      (h : Unfolds (next reply) past rest) :
      Unfolds (.call c next) (.called c reply :: past) rest
  | ask {query : Query} {answer : Answer} {next : Answer → Script Query Answer α}
      {past : List (Event Query Answer)} {rest : Script Query Answer α}
      (h : Unfolds (next answer) past rest) :
      Unfolds (.ask query next) (.asked query answer :: past) rest

namespace Unfolds

theorem unique {other : Script Query Answer α} (hleft : script.Unfolds past rest)
    (hright : script.Unfolds past other) : rest = other := by
  induction hleft with
  | nil =>
      cases hright
      rfl
  | call _ ih =>
      cases hright with
      | call h => exact ih h
  | ask _ ih =>
      cases hright with
      | ask h => exact ih h

theorem append {middle : Script Query Answer α} {first second : List (Event Query Answer)}
    (hfirst : script.Unfolds first middle) (hsecond : middle.Unfolds second rest) :
    script.Unfolds (first ++ second) rest := by
  induction hfirst with
  | nil => exact hsecond
  | call _ ih => exact .call (ih hsecond)
  | ask _ ih => exact .ask (ih hsecond)

theorem bind {value : α} {next : α → Script Query Answer β} (h : script.Unfolds past (done value)) :
    (script >>= next).Unfolds past (next value) := by
  generalize hlast : done value = last at h
  induction h with
  | nil =>
      subst hlast
      exact .nil
  | call _ ih => exact .call (ih hlast)
  | ask _ ih => exact .ask (ih hlast)

theorem of_done {value : α} (h : (done value : Script Query Answer α).Unfolds past rest) :
    past = [] ∧ rest = done value := by
  cases h
  exact ⟨rfl, rfl⟩

/-- A script and what follows it: either the first is not at its end yet, or it has come to a value
that the second goes on from. -/
theorem bind_cases {next : α → Script Query Answer β} {last : Script Query Answer β}
    (h : (script >>= next).Unfolds past last) :
    (∃ middle, script.Unfolds past middle ∧ last = middle >>= next) ∨
      ∃ first second value, past = first ++ second ∧ script.Unfolds first (done value) ∧
        (next value).Unfolds second last := by
  induction script generalizing past with
  | done value => exact Or.inr ⟨[], past, value, rfl, .nil, h⟩
  | call c rest ih =>
      change (Script.call c fun reply => (rest reply).bind next).Unfolds past last at h
      cases h with
      | nil => exact Or.inl ⟨.call c rest, .nil, rfl⟩
      | @call _ reply _ past _ h =>
          rcases ih reply h with
            ⟨middle, hmiddle, hlast⟩ | ⟨first, second, value, rfl, hfirst, hsecond⟩
          · exact Or.inl ⟨middle, .call hmiddle, hlast⟩
          · exact Or.inr ⟨.called c reply :: first, second, value, rfl, .call hfirst, hsecond⟩
  | ask query rest ih =>
      change (Script.ask query fun answer => (rest answer).bind next).Unfolds past last at h
      cases h with
      | nil => exact Or.inl ⟨.ask query rest, .nil, rfl⟩
      | @ask _ answer _ past _ h =>
          rcases ih answer h with
            ⟨middle, hmiddle, hlast⟩ | ⟨first, second, value, rfl, hfirst, hsecond⟩
          · exact Or.inl ⟨middle, .ask hmiddle, hlast⟩
          · exact Or.inr ⟨.asked query answer :: first, second, value, rfl, .ask hfirst, hsecond⟩

theorem bind_done {next : α → Script Query Answer β} {value : β}
    (h : (script >>= next).Unfolds past (done value)) :
    ∃ first second middle, past = first ++ second ∧ script.Unfolds first (done middle) ∧
      (next middle).Unfolds second (done value) := by
  rcases h.bind_cases with ⟨middle, hmiddle, hlast⟩ | h
  · cases middle with
    | done middle =>
        change done value = next middle at hlast
        exact ⟨past, [], middle, (List.append_nil past).symm, hmiddle, hlast ▸ .nil⟩
    | call c next => cases hlast
    | ask query next => cases hlast
  · exact h

theorem bind_call {c : Call} {next : α → Script Query Answer β}
    {last : c.Reply → Script Query Answer β} (h : (script >>= next).Unfolds past (.call c last)) :
    (∃ rest, script.Unfolds past (.call c rest)) ∨
      ∃ first second value, past = first ++ second ∧ script.Unfolds first (done value) ∧
        (next value).Unfolds second (.call c last) := by
  rcases h.bind_cases with ⟨middle, hmiddle, hlast⟩ | h
  · cases middle with
    | done value =>
        change (Script.call c last : Script Query Answer β) = next value at hlast
        exact Or.inr ⟨past, [], value, (List.append_nil past).symm, hmiddle, hlast ▸ .nil⟩
    | call other rest =>
        cases hlast
        exact Or.inl ⟨rest, hmiddle⟩
    | ask query rest => cases hlast
  · exact Or.inr h

theorem bind_ask {question : Query} {next : α → Script Query Answer β}
    {last : Answer → Script Query Answer β}
    (h : (script >>= next).Unfolds past (.ask question last)) :
    (∃ rest, script.Unfolds past (.ask question rest) ∧ last = fun answer => rest answer >>= next) ∨
      ∃ first second value, past = first ++ second ∧ script.Unfolds first (done value) ∧
        (next value).Unfolds second (.ask question last) := by
  rcases h.bind_cases with ⟨middle, hmiddle, hlast⟩ | h
  · cases middle with
    | done value =>
        change (Script.ask question last : Script Query Answer β) = next value at hlast
        exact Or.inr ⟨past, [], value, (List.append_nil past).symm, hmiddle, hlast ▸ .nil⟩
    | call c rest => cases hlast
    | ask other rest =>
        cases hlast
        exact Or.inl ⟨rest, hmiddle, rfl⟩
  · exact Or.inr h

theorem of_perform {c : Call} {reply : c.Reply}
    (h : (perform c : Script Query Answer c.Reply).Unfolds past (done reply)) :
    past = [.called c reply] := by
  cases h with
  | call h =>
      cases h
      rfl

theorem of_query {question : Query} {answer : Answer}
    (h : (query question).Unfolds past (done answer)) : past = [.asked question answer] := by
  cases h with
  | ask h =>
      cases h
      rfl

end Unfolds

theorem Only.of_unfolds (honly : script.Only permits) (h : script.Unfolds past rest) :
    rest.Only permits ∧ ∀ c reply, .called c reply ∈ past → permits c := by
  induction h with
  | nil => exact ⟨honly, by simp⟩
  | @call c reply next past rest _ ih =>
      cases honly with
      | call hcall hnext =>
          obtain ⟨hrest, hpast⟩ := ih (hnext reply)
          refine ⟨hrest, fun other otherReply hmem => ?_⟩
          rcases List.mem_cons.mp hmem with heq | hmem
          · cases heq
            exact hcall
          · exact hpast other otherReply hmem
  | ask _ ih =>
      cases honly with
      | ask hnext =>
          obtain ⟨hrest, hpast⟩ := ih (hnext _)
          exact ⟨hrest, fun other reply hmem => hpast other reply (by simpa using hmem)⟩

/-- Before the script makes a call of some kind, what has happened is as the guard says. -/
def Awaits (script : Script Query Answer α) (guard : List (Event Query Answer) → Prop)
    (target : Call → Prop) : Prop :=
  ∀ past c reply more rest, script.Unfolds (past ++ .called c reply :: more) rest →
    target c → guard past

variable {guard : List (Event Query Answer) → Prop} {target : Call → Prop}

theorem Only.awaits (honly : script.Only permits) (hnever : ∀ c, permits c → ¬ target c) :
    script.Awaits guard target := by
  intro past c reply more rest hunfolds htarget
  exact absurd htarget (hnever c ((honly.of_unfolds hunfolds).2 c reply (by simp)))

theorem awaits_done (value : α) :
    (done value : Script Query Answer α).Awaits guard target := by
  intro past c reply more rest hunfolds _
  simpa using hunfolds.of_done.1

theorem Awaits.of_guard (script : Script Query Answer α) (hguard : ∀ past, guard past) :
    script.Awaits guard target :=
  fun past _ _ _ _ _ _ => hguard past

theorem query_awaits (question : Query) :
    (query question : Script Query Answer Answer).Awaits guard target :=
  (Only.query question : (query question).Only fun _ => False).awaits fun _ h => h.elim

/-- Of two scripts in a row, the second has all events of the first behind it. -/
theorem Awaits.bind {next : α → Script Query Answer β} (hscript : script.Awaits guard target)
    (hnext : ∀ first value, script.Unfolds first (done value) →
      (next value).Awaits (fun second => guard (first ++ second)) target) :
    (script >>= next).Awaits guard target := by
  intro past c reply more rest hunfolds htarget
  rcases hunfolds.bind_cases with
    ⟨middle, hmiddle, _⟩ | ⟨first, second, value, hsum, hfirst, hsecond⟩
  · exact hscript past c reply more middle hmiddle htarget
  -- The call is one of the first script's, unless all of the first script lies before it.
  · rcases List.append_eq_append_iff.mp hsum with ⟨between, rfl, hmore⟩ | ⟨between, rfl, rfl⟩
    · cases between with
      | nil =>
          rw [List.append_nil] at hfirst
          rw [List.nil_append] at hmore
          rw [← hmore] at hsecond
          have hguard := hnext past value hfirst [] c reply more rest hsecond htarget
          simpa using hguard
      | cons event between =>
          obtain ⟨rfl, _⟩ := List.cons.inj hmore
          exact hscript past c reply between (done value) hfirst htarget
    · exact hnext first value hfirst between c reply more rest hsecond htarget

/-! ### The events of a run -/

def events {σ : Type} (answer : Query → σ → Answer × σ) :
    Script Query Answer α → Disk → σ → List (Event Query Answer)
  | done _, _, _ => []
  | call c next, disk, state =>
    .called c (c.perform disk).1 ::
      (next (c.perform disk).1).events answer (c.perform disk).2 state
  | ask query next, disk, state =>
    .asked query (answer query state).1 ::
      (next (answer query state).1).events answer disk (answer query state).2

theorem unfolds_events {σ : Type} (answer : Query → σ → Answer × σ)
    (script : Script Query Answer α) (disk : Disk) (state : σ) :
    script.Unfolds (script.events answer disk state)
      (done (script.run answer disk state).value) := by
  induction script generalizing disk state with
  | done value => exact .nil
  | call c next ih => exact .call (ih _ _ _)
  | ask query next ih => exact .ask (ih _ _ _)

theorem Only.of_mem_events {σ : Type} (honly : script.Only permits)
    {answer : Query → σ → Answer × σ} {disk : Disk} {state : σ} {c : Call} {reply : c.Reply}
    (hmem : .called c reply ∈ script.events answer disk state) : permits c :=
  (honly.of_unfolds (unfolds_events answer script disk state)).2 c reply hmem

theorem events_bind {σ : Type} (answer : Query → σ → Answer × σ) (script : Script Query Answer α)
    (next : α → Script Query Answer β) (disk : Disk) (state : σ) :
    (script.bind next).events answer disk state = script.events answer disk state ++
      (next (script.run answer disk state).value).events answer
        (script.run answer disk state).disk (script.run answer disk state).state := by
  induction script generalizing disk state with
  | done value => rfl
  | call c rest ih => exact congrArg (_ :: ·) (ih _ _ _)
  | ask query rest ih => exact congrArg (_ :: ·) (ih _ _ _)

end Script

/-! ### The scripts of a creation -/

def Call.IsWithin (made : Path → Prop) (written : Path → ByteArray → Prop) : Call → Prop
  | makeDirectory path => made path
  | writeFile path content => written path content
  | isDirectory _ | isFile _ | readText _ => True

def Call.IsBuilding (made : Path → Prop) (written : Path → ByteArray → Prop) : Call → Prop
  | makeDirectory path | isDirectory path => made path
  | writeFile path content => written path content
  | isFile _ | readText _ => False

theorem Call.IsBuilding.isWithin {made : Path → Prop} {written : Path → ByteArray → Prop} {c : Call}
    (h : c.IsBuilding made written) : c.IsWithin made written := by
  cases c with
  | makeDirectory path | writeFile path content => exact h
  | isDirectory path | isFile path | readText path => exact trivial

theorem Script.Only.isWithin {Query Answer α : Type} {made : Path → Prop}
    {written : Path → ByteArray → Prop} {script : Script Query Answer α}
    (h : script.Only (Call.IsBuilding made written)) : script.Only (Call.IsWithin made written) :=
  h.mono fun _ => Call.IsBuilding.isWithin

section Creation

variable {Query Answer : Type} {path : Path} {made : Path → Prop}
  {written : Path → ByteArray → Prop}

theorem Directory.only_make (hpath : made path) :
    (Directory.make path : Script Query Answer _).Only (Call.IsBuilding made written) := by
  refine Script.Only.bind (.perform hpath) fun reply => ?_
  split
  · exact .done
  · refine Script.Only.bind (.perform hpath) fun found => ?_
    split <;> exact .done
  · exact .done

theorem Directory.only_makeChain {chain : List Path} (hchain : ∀ path ∈ chain, made path) :
    (Directory.makeChain chain : Script Query Answer _).Only (Call.IsBuilding made written) := by
  induction chain with
  | nil => exact .done
  | cons path ancestors ih =>
      have hpath := hchain path List.mem_cons_self
      refine Script.Only.bind (Directory.only_make hpath) fun first => ?_
      split
      · exact .done
      · have habove := ih fun other hother => hchain other (List.mem_cons_of_mem _ hother)
        refine Script.Only.bind habove fun above => ?_
        split
        · exact Script.Only.bind (Directory.only_make hpath) fun _ => .done
        · exact .done
      · exact .done

theorem Directory.exists_ensureParent (path : Path) :
    ∃ parent, (Directory.ensureParent path : Script Query Answer _) =
      Directory.makeChain path.ancestors >>= fun ensured =>
        return ensured.mapError (.makeDirectory parent) := by
  rw [Directory.ensureParent, Path.ancestors]
  cases path.parent? with
  | none => exact ⟨path, rfl⟩
  | some parent => exact ⟨parent, rfl⟩

theorem Directory.only_ensureParent (hancestors : ∀ stem ∈ path.ancestors, made stem) :
    (Directory.ensureParent path : Script Query Answer _).Only (Call.IsBuilding made written) := by
  obtain ⟨parent, hparent⟩ := @Directory.exists_ensureParent Query Answer path
  rw [hparent]
  exact Script.Only.bind (Directory.only_makeChain hancestors) fun _ => .done

theorem Directory.only_claim (hpath : made path) (hancestors : ∀ stem ∈ path.ancestors, made stem) :
    (Directory.claim path : Script Query Answer _).Only (Call.IsBuilding made written) := by
  refine Script.Only.bind (Directory.only_ensureParent hancestors) fun ensured => ?_
  split
  · exact .done
  · exact Script.Only.bind (Directory.only_make hpath) fun _ => .done

theorem Directory.claim_awaits {guard : List (Event Query Answer) → Prop} {target : Call → Prop}
    (htarget : ∀ c, target c → ∃ path content, c = .writeFile path content) (path : Path) :
    (Directory.claim path : Script Query Answer _).Awaits guard target := by
  have honly : (Directory.claim path : Script Query Answer _).Only
      (Call.IsWithin (fun _ => True) fun _ _ => False) :=
    (Directory.only_claim trivial fun _ _ => trivial).isWithin
  refine honly.awaits fun c hwithin hc => ?_
  obtain ⟨path, content, rfl⟩ := htarget c hc
  exact hwithin

theorem File.only_write {content : ByteArray} (hpath : written path content)
    (hancestors : ∀ stem ∈ path.ancestors, made stem) :
    (File.write path content : Script Query Answer _).Only (Call.IsBuilding made written) := by
  refine Script.Only.bind (Directory.only_ensureParent hancestors) fun ensured => ?_
  split
  · exact .done
  · exact Script.Only.bind (.perform hpath) fun _ => .done

theorem File.mem_of_unfolds_write {content : ByteArray} {past : List (Event Query Answer)}
    (h : (File.write path content : Script Query Answer _).Unfolds past (.done (.ok ()))) :
    .called (.writeFile path content) (.ok ()) ∈ past := by
  obtain ⟨first, second, ensured, rfl, _, hwrite⟩ := h.bind_done
  cases ensured with
  | error failure => cases hwrite.of_done.2
  | ok _ =>
      obtain ⟨third, last, reply, rfl, hperform, hlast⟩ := hwrite.bind_done
      cases reply with
      | error fault => cases hlast.of_done.2
      | ok _ =>
          rw [hperform.of_perform]
          simp

end Creation

end Scaffold
