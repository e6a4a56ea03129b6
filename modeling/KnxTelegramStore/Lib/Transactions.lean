import KnxTelegramStore.Lib.Runs

/-!
A connection whose transactions are opened implicitly: the first statement
that writes data opens one, every statement after it belongs to it, and a
statement before it takes effect on its own. What a cut leaves is therefore
the state before the first of the opening statements (`run_committed_open`),
or all that was done, if none was reached (`run_committed_closed`).
-/
namespace ImplicitTransactions
open EventMachine

variable {σ ι : Type*}

/-- What the file holds, and what the connection sees. -/
structure Connection (σ : Type*) where
  committed : σ
  working : σ
  inTransaction : Bool

/-- A connection that has just been opened. -/
def Connection.of (s : σ) : Connection σ := ⟨s, s, false⟩

/-- One statement, unless it raises. -/
def Connection.execute (effect : σ → ι → Option σ) (opens : ι → Bool) (conn : Connection σ) (statement : ι) :
    Option (Connection σ) :=
  (effect conn.working statement).map fun working =>
    if conn.inTransaction || opens statement then ⟨conn.committed, working, true⟩ else ⟨working, working, false⟩

variable {effect : σ → ι → Option σ} {opens : ι → Bool} {conn conn' : Connection σ} {statements : List ι}

/-- The connection itself sees every statement. -/
theorem run_working (ran : run (Connection.execute effect opens) conn statements = some conn') :
    run effect conn.working statements = some conn'.working := by
  induction statements generalizing conn with
  | nil =>
    cases ran
    rfl
  | cons statement rest ih =>
    obtain ⟨next, taken, later⟩ := run_cons.mp ran
    obtain ⟨working, done, rfl⟩ := Option.map_eq_some_iff.mp taken
    refine run_cons.mpr ⟨working, done, ?_⟩
    have same := ih later
    split at same <;> exact same

/-- Inside a transaction nothing is committed. -/
theorem run_committed_open (inside : conn.inTransaction = true)
    (ran : run (Connection.execute effect opens) conn statements = some conn') :
    conn'.committed = conn.committed ∧ conn'.inTransaction = true := by
  refine run_keeps (I := fun now => now.committed = conn.committed ∧ now.inTransaction = true) ?_
    ⟨rfl, inside⟩ ran
  rintro now statement next ⟨committed, inside⟩ taken
  obtain ⟨working, _, rfl⟩ := Option.map_eq_some_iff.mp taken
  rw [inside, Bool.true_or, if_pos rfl]
  exact ⟨committed, rfl⟩

/-- Outside of transactions everything is. -/
theorem run_committed_closed (outside : conn.inTransaction = false) (same : conn.committed = conn.working)
    (closed : ∀ statement ∈ statements, opens statement = false)
    (ran : run (Connection.execute effect opens) conn statements = some conn') :
    conn'.committed = conn'.working ∧ conn'.inTransaction = false := by
  refine run_invariant (I := fun now => now.committed = now.working ∧ now.inTransaction = false) ?_
    ⟨same, outside⟩ (along_of_mem fun statement mem _ => closed statement mem) ran
  rintro now statement next ⟨_, outside⟩ unopened taken
  obtain ⟨working, _, rfl⟩ := Option.map_eq_some_iff.mp taken
  simp [outside, unopened]

/-- What the statements outside of a transaction keep is true of the file,
wherever the run is cut. -/
theorem run_committed {P : σ → Prop}
    (keep : ∀ s, ∀ statement ∈ statements, ∀ s', P s → opens statement = false →
      effect s statement = some s' → P s')
    (start : P conn.committed) (closed : conn.inTransaction = false → conn.committed = conn.working)
    (ran : run (Connection.execute effect opens) conn statements = some conn') : P conn'.committed := by
  have own : Along (Connection.execute effect opens) (fun _ statement => statement ∈ statements) conn statements :=
    along_of_mem fun _ mem _ => mem
  refine (run_invariant (I := fun now : Connection σ => P now.committed ∧
    (now.inTransaction = false → now.committed = now.working)) ?_ ⟨start, closed⟩ own ran).1
  rintro now statement next ⟨holds, closed⟩ mem taken
  obtain ⟨working, done, rfl⟩ := Option.map_eq_some_iff.mp taken
  cases inside : now.inTransaction with
  | true => simpa using holds
  | false =>
    cases opened : opens statement with
    | true => simpa using holds
    | false =>
      have kept := keep now.working statement mem working (closed inside ▸ holds) opened done
      simpa using kept

end ImplicitTransactions
