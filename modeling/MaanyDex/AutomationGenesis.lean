/-
Export and import of the modules by which contracts are called: `x/cron`, `x/contractmanager` and
`x/interchainqueries`.

All three import through the operations that add something new, so what was counted or numbered
before the export is counted and numbered again (`genesis_changes_state`).
-/
import MaanyDex.ContractManager.Genesis
import MaanyDex.Cron.Genesis
import MaanyDex.InterchainQueries.Genesis

namespace MaanyDex

open ContractManager (Dense failing resubmitting)
open InterchainQueries (SameQueries Portable checkTransactionIsAlreadyProcessed demoRegister
  demoRegistered demoSubmit oneMsg)

variable {ι : Type}

/-- **What survives export and import.**  The schedules with their heights and their count, the
failures under their ids, and the queries with the next id and the processed transactions are the
same afterwards exactly if all schedules were executed last at the height of the import and are
counted right, if no contract has a gap in the ids of its failures, and if the last id of a query
is still registered and nothing was processed for a registered query. -/
theorem genesis_round_trip_iff
    {cronChain : Cron.Chain ι} {cron : Cron.World ι} (hcron : Cron.FromGenesis cronChain cron)
    {freshCron : Cron.World ι} (hfreshCron : Cron.Initial freshCron)
    {managerChain : ContractManager.Chain ι} {manager : ContractManager.World ι}
    (hmanager : ContractManager.FromGenesis managerChain manager)
    {freshManager : ContractManager.World ι} (hfreshManager : ContractManager.Initial freshManager)
    {queriesChain : InterchainQueries.Chain ι} {queries : InterchainQueries.World ι}
    (hqueries : InterchainQueries.FromGenesis queriesChain queries)
    {freshQueries : InterchainQueries.World ι}
    (hfreshQueries : InterchainQueries.Initial freshQueries) :
    ((∃ cron', Cron.initGenesis freshCron (Cron.exportGenesis cron) = .ok cron'
        ∧ Cron.SameSchedules cron cron')
      ∧ (∀ k, (ContractManager.initGenesis freshManager
          (ContractManager.exportGenesis manager)).failures.lookup k = manager.failures.lookup k)
      ∧ SameQueries queries
        (InterchainQueries.initGenesis freshQueries (InterchainQueries.exportGenesis queries)))
    ↔ Cron.Restartable freshCron.height cron ∧ Dense manager ∧ Portable queries := by
  rw [Cron.sameSchedules_iff hfreshCron hcron.own,
    ContractManager.lookup_initGenesis_iff hfreshManager.failures hmanager.keyed,
    InterchainQueries.sameQueries_iff hfreshQueries hqueries.own]

/-- **Export and import change the state.**  Two schedules that were executed last at height 0 are
imported at height 7, and look as if they had been executed then; the failure 1 of a contract
whose failure 0 was resubmitted becomes its failure 0; the id of a query that was removed is
assigned again; and a transaction that was processed is not known to be. -/
theorem genesis_changes_state :
    (Cron.getAllSchedules Cron.demoWorld).map (·.lastExecuteHeight) = [0, 0]
      ∧ ((Cron.initGenesis { Cron.demoFresh with height := 7 }
          (Cron.exportGenesis Cron.demoWorld)).toOption.map fun w =>
          (Cron.getAllSchedules w).map (·.lastExecuteHeight)) = some [7, 7]
      ∧ (let manager := Run.run (ContractManager.step ContractManager.demoChain)
          ContractManager.demoWorld [failing "ack", failing "timeout", resubmitting 0 .accept]
        manager.failures.keys = [(ascii "dao", 1)]
          ∧ (ContractManager.initGenesis ContractManager.demoWorld
            (ContractManager.exportGenesis manager)).failures.keys = [(ascii "dao", 0)])
      ∧ (let queries := Run.run (InterchainQueries.step InterchainQueries.demoChain)
          (InterchainQueries.demoWorld []) [oneMsg
            (.register demoRegister) .accept,
            oneMsg (demoSubmit 1 (ascii "tx")) .accept,
            oneMsg (.register demoRegister) .accept,
            oneMsg (.remove ⟨2, ascii "contract"⟩) .accept]
        queries.queries.keys = [1]
          ∧ queries.lastID = 2
          ∧ checkTransactionIsAlreadyProcessed queries 1 (ascii "tx") = true
          ∧ (InterchainQueries.initGenesis (InterchainQueries.demoWorld [])
            (InterchainQueries.exportGenesis queries)).lastID = 1
          ∧ checkTransactionIsAlreadyProcessed (InterchainQueries.initGenesis
            (InterchainQueries.demoWorld []) (InterchainQueries.exportGenesis queries)) 1
            (ascii "tx") = false) := by
  decide +kernel

/-! ### A state that survives -/

lemma fromGenesis_demoWorld : Cron.FromGenesis Cron.demoChain Cron.demoWorld :=
  ⟨Cron.demoFresh, Cron.demoWorld, Cron.demoGenesis, [], ⟨rfl, rfl, rfl⟩,
    Cron.initGenesis_demoWorld, rfl⟩

lemma restartable_demoWorld : Cron.Restartable 0 Cron.demoWorld := by
  have hheights : ∀ e ∈ Cron.demoWorld.schedules.toList, e.2.lastExecuteHeight = 0 := by
    decide +kernel
  refine ⟨fun name schedule h => ?_, by decide +kernel⟩
  exact hheights (name, schedule) (Std.ExtTreeMap.mem_toList_iff_getElem?_eq_some.mpr h)

def oneFailure : ContractManager.World Unit :=
  Run.run (ContractManager.step ContractManager.demoChain) ContractManager.demoWorld [failing "ack"]

lemma dense_oneFailure : Dense oneFailure := by
  have hkeys : oneFailure.failures.keys = [(ascii "dao", 0)] := by decide +kernel
  intro address id id' hid hlt
  have hmem : (address, id) ∈ oneFailure.failures.keys :=
    AList.mem_keys.mp (AList.lookup_isSome.mp (Option.isSome_iff_ne_none.mpr hid))
  rw [hkeys, List.mem_singleton] at hmem
  obtain rfl : id = 0 := congrArg Prod.snd hmem
  exact absurd (UInt64.lt_iff_toNat_lt.mp hlt) (Nat.not_lt_zero _)

lemma fromGenesis_demoRegistered : InterchainQueries.FromGenesis InterchainQueries.demoChain
    (demoRegistered (InterchainQueries.demoWorld [])) := by
  refine ⟨InterchainQueries.demoWorld [], ⟨[]⟩,
    [oneMsg (.register demoRegister) .accept],
    InterchainQueries.demoWorld_initial [], ?_⟩
  have hdeposit : (InterchainQueries.demoWorld []).params.queryDeposit = [] := rfl
  exact Run.exec_ok (InterchainQueries.step_demoRegister hdeposit)

lemma portable_demoRegistered : Portable (demoRegistered (InterchainQueries.demoWorld [])) := by
  have hkeys : (demoRegistered (InterchainQueries.demoWorld [])).queries.keys = [1] := rfl
  refine ⟨fun id hid => ?_, Or.inr ?_, fun id _ txHash => ?_⟩
  · have hmem : id ∈ (demoRegistered (InterchainQueries.demoWorld [])).queries.keys :=
      AList.mem_keys.mp (AList.lookup_isSome.mp (Option.isSome_iff_ne_none.mpr hid))
    rw [hkeys, List.mem_singleton] at hmem
    rw [hmem]
    decide
  · apply Option.isSome_iff_ne_none.mp
    rfl
  · show (∅ : KVStore).has _ = false
    rw [KVStore.has, KVStore.get_empty]
    rfl

/-- Two schedules that were never executed, one failure and one query survive an export
and an import at height 0. -/
theorem genesis_round_trip_iff_young :
    (∃ cron', Cron.initGenesis Cron.demoFresh (Cron.exportGenesis Cron.demoWorld) = .ok cron'
        ∧ Cron.SameSchedules Cron.demoWorld cron')
      ∧ (∀ k, (ContractManager.initGenesis ContractManager.demoWorld
          (ContractManager.exportGenesis oneFailure)).failures.lookup k
            = oneFailure.failures.lookup k)
      ∧ SameQueries
        (demoRegistered (InterchainQueries.demoWorld []))
        (InterchainQueries.initGenesis (InterchainQueries.demoWorld [])
          (InterchainQueries.exportGenesis (demoRegistered (InterchainQueries.demoWorld [])))) := by
  refine (genesis_round_trip_iff fromGenesis_demoWorld ⟨rfl, rfl, rfl⟩
    (⟨ContractManager.demoWorld, ⟨[]⟩, [failing "ack"], ⟨rfl, rfl, rfl⟩, rfl⟩ :
      ContractManager.FromGenesis ContractManager.demoChain oneFailure) ⟨rfl, rfl, rfl⟩
    fromGenesis_demoRegistered (InterchainQueries.demoWorld_initial [])).mpr ?_
  exact ⟨restartable_demoWorld, dense_oneFailure, portable_demoRegistered⟩

end MaanyDex
