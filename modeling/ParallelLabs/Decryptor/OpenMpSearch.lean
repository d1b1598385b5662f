import ParallelLabs.Decryptor.TeamTermination

/-!
# The search without interrupts

`OpenMpParallelRunner` on the workers of `prepare_mapped_functions`. The check of
`OpenMpSystemInterrupter` never says stop, so every worker goes through its stretch up
to its first accepted key whatever the others do: what each worker prints does not
depend on the schedule (`openMp_search`).
-/

set_option autoImplicit false

namespace ParallelLabs.Decryptor

open Library Callables Runners

section OpenMp

variable {search : Search} {pid : Fin search.numThreads.toNat → Nat}
  {prepared : Prepared DecryptorSequence} {events : List (TeamEvent search.numThreads.toNat)}
  {t : Team (Worker Unit) search.numThreads.toNat
    (OpenMpSystemInterrupter (Fin search.numThreads.toNat))}

/-- No worker is told to stop. -/
theorem not_toldToStop (run : Run (Team.Step (searchLoad .openmp pid prepared))
      (Team.Started (searchLoad .openmp pid prepared)) events t)
    (i : Fin search.numThreads.toNat) : ¬ ToldToStop events i := by
  refine run.invariant (fun past _ => ¬ ToldToStop past i) (fun _ _ told => by cases told)
    fun past t event t' quiet step told => ?_
  rcases List.mem_append.mp told with earlier | last
  · exact quiet earlier
  · obtain rfl := List.mem_singleton.mp last
    have answered := step.interrupter_moves.1 _ rfl
    cases openMp_answer answered

end OpenMp

/-- **The OpenMP runner prints all keys.** Every run has a bounded number of steps and
goes on until the loop is over, and no worker is ever told to stop. Then every worker has
printed the line of the first accepted key of its stretch, if it has one, in whatever
order the workers took their steps; and some worker has one. -/
theorem openMp_search (search : Search) (pid : Fin search.numThreads.toNat → Nat)
    {prepared : Prepared DecryptorSequence}
    (prepare : prepareMappedFunctions 0 search.rangeEnd search.numThreads search.message
      search.encrypted = .ok prepared)
    {events : List (TeamEvent search.numThreads.toNat)}
    {t : Team (Worker Unit) search.numThreads.toNat
      (OpenMpSystemInterrupter (Fin search.numThreads.toNat))}
    (run : Run (Team.Step (searchLoad .openmp pid prepared))
      (Team.Started (searchLoad .openmp pid prepared)) events t) :
    events.length ≤ search.numThreads.toNat * (24 * search.fullWeight + 25) + 1 ∧
      (t.returned = false → ∃ event t', t.Step (searchLoad .openmp pid prepared) event t') ∧
      (∀ i, ¬ ToldToStop events i) ∧
      (t.returned = true → (∀ i, t.printed i = search.pieces .openmp pid i) ∧
        ∃ i, t.printed i ≠ []) := by
  have launching : Kind.openmp.Launches search.numThreads.toNat := trivial
  refine ⟨?_, exists_step (openMpResponsive _) (openMp_sound _) launching prepare run,
    not_toldToStop run, ?_⟩
  · have bound := length_le_of_run (openMpResponsive _) (openMp_sound _) prepare run
    simpa [openMpResponsive] using bound
  · intro returned
    obtain ⟨lines, i, hit, line⟩ := printed_of_run (openMp_sound _) launching prepare run returned
    refine ⟨fun i => (lines i).resolve_right fun told => not_toldToStop run i told.1, i, ?_⟩
    rw [line]
    exact pieces_ne_nil hit

/-- The search of `main` with the OpenMP runner, run to its end. -/
theorem openMp_search_main :
    ∃ (prepared : Prepared DecryptorSequence) (events : List (TeamEvent 5))
      (t : Team (Worker Unit) 5 (OpenMpSystemInterrupter (Fin 5))),
      Run (Team.Step (searchLoad .openmp (fun _ => 0) prepared))
        (Team.Started (searchLoad .openmp (fun _ => 0) prepared)) events t ∧ t.returned = true ∧
      ∀ i, t.printed i = mainSearch.pieces .openmp (fun _ => 0) i := by
  have initial : (OpenMpSystemInterrupter (Fin mainSearch.numThreads.toNat)).initial
      fun _ => none := fun _ => rfl
  have launching : Kind.openmp.Launches mainSearch.numThreads.toNat := trivial
  obtain ⟨prepared, events, t, prepare, run, returned⟩ := exists_returned mainSearch launching
    (fun _ => 0) (openMpResponsive _) (openMp_sound _) initial
  exact ⟨prepared, events, t, run, returned,
    ((openMp_search mainSearch (fun _ => 0) prepare run).2.2.2 returned).1⟩

end ParallelLabs.Decryptor
