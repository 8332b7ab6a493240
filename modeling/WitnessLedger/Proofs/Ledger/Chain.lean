import WitnessLedger.Proofs.Chain.AppendOnly
import WitnessLedger.Proofs.Ledger.Effect

/-!
# The chain of a ledger

Whatever is done to a ledger is done to its chain by operations of the chain, so that what holds
after every run of a chain holds after every run of a ledger.

## Key results

- `chain_run`: the chain after a run is the chain after the run of the chain
- `proposals_eq`: what a run proposes is what its operations propose
- `traced_run`: the chain after a run is traced by the histories of the run
- `extends_run`: what a chain holds it still holds when the run of the ledger goes on
-/

namespace WitnessLedger

namespace Ledger

theorem chain_act (l : Ledger) (a : Action) : (l.act a).chain = l.chain.run (l.onChain a) :=
  (act_effect l a).chain_eq

/-- The chain after a run is the chain after the run of the chain. -/
theorem chain_run (l : Ledger) (as : List Action) :
    (l.run as).chain = l.chain.run (l.chainRun as) :=
  Run.foldl_chronicle chain_act l as

theorem chainRun_append (l : Ledger) (as bs : List Action) :
    l.chainRun (as ++ bs) = l.chainRun as ++ (l.run as).chainRun bs :=
  Run.chronicle_append l as bs

/-- The suffixes of a part of a run are among those of the run. -/
theorem nodup_suffixes_append {l : Ledger} {as bs : List Action}
    (h : (l.suffixes (as ++ bs)).Nodup) : (l.suffixes as).Nodup := by
  unfold suffixes at h
  rw [chainRun_append] at h
  exact Chain.nodup_of_suffixes_append h

/-- What an operation proposes to the chain. -/
def proposes (l : Ledger) (a : Action) : List Entry := l.chain.proposals (l.onChain a)

theorem proposals_eq (l : Ledger) (as : List Action) :
    l.proposals as = Run.chronicle act proposes l as :=
  Run.chronicle_chronicle chain_act Chain.proposes l as

/-- The chain after a run of a new ledger is traced by what the run proposes. -/
theorem traced_run (panel : Panel) (rule : ForkRule) (capacity significance : Nat)
    (scope : SortedSet) (as : List Action)
    (h : ((new panel rule capacity significance scope).suffixes as).Nodup) :
    let l := new panel rule capacity significance scope
    (l.run as).chain.Traced (l.proposals as) (l.suffixes as)
      (l.chain.acceptances (l.chainRun as)) := by
  intro l
  rw [chain_run]
  exact Chain.traced_run panel rule (l.chainRun as) h

variable {panel : Panel} {rule : ForkRule} {capacity significance : Nat} {scope : SortedSet}
  {as bs : List Action}

/-- What a chain holds it still holds when the run of the ledger goes on. -/
theorem extends_run
    (h : ((new panel rule capacity significance scope).suffixes (as ++ bs)).Nodup) :
    let l := new panel rule capacity significance scope
    (l.run as).chain.Extends (l.run (as ++ bs)).chain := by
  intro l
  unfold suffixes at h
  rw [chainRun_append] at h
  rw [chain_run, chain_run, chainRun_append]
  exact Chain.extends_run h

/-- The blocks are linked, whatever the run. -/
theorem linked_run (as : List Action) :
    Chain.Linked ((new panel rule capacity significance scope).run as).chain.blocks := by
  rw [chain_run]
  exact Chain.linked_run panel rule _

end Ledger

end WitnessLedger
