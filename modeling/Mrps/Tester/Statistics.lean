import Mrps.Tester.Handler

/-!
# The statistics

`print_stat` reads the global counters one after the other and computes its line from the values.
-/

namespace Mrps.Tester

open MachineInt

/-- `children - connection_errors` of two values read, a `size_t`. -/
def connections (children connection_errors : Nat) : Nat :=
  toUnsigned 64 ((children : Int) - connection_errors)

/-- `conn_avg`. -/
def connAvg (connection_summ_mcs children connection_errors : Nat) : Nat :=
  connection_summ_mcs / max (connections children connection_errors) 1

/-- `lat_avg`. -/
def latAvg (latency_summ_mcs msgs : Nat) : Nat := latency_summ_mcs / max msgs 1

/-- The counters that `print_stat` reads, in its order: for the two averages, then for its line. -/
def statReads (final : Bool) : List Counter :=
  [.connectionSummMcs, .children, .connectionErrors, .latencySummMcs, .msgs, .children,
    .connectionErrors] ++ (if final then [.connectionActive] else []) ++ [.exchangeErrors, .msgs]

/-- The line of `print_stat`; the averages are in microseconds, which it prints as milliseconds. -/
structure Report where
  chld : Nat
  connErr : Nat
  exchErr : Nat
  connAvg : Nat
  latAvg : Nat
  msgs : Nat
  deriving DecidableEq, Repr

/-- The line of `print_stat` from the values it read. -/
def printStat : Bool → List Nat → Option Report
  | false, [connection_summ_mcs, children, connection_errors, latency_summ_mcs, msgs, chld, connErr,
      exchErr, msgs'] =>
      some
        { chld, connErr, exchErr
          connAvg := connAvg connection_summ_mcs children connection_errors
          latAvg := latAvg latency_summ_mcs msgs
          msgs := msgs' }
  | true, [connection_summ_mcs, children, connection_errors, latency_summ_mcs, msgs, chld, connErr,
      active, exchErr, msgs'] =>
      some
        { chld, exchErr
          connErr := (connErr + active) % 2 ^ 64
          connAvg := connAvg connection_summ_mcs children connection_errors
          latAvg := latAvg latency_summ_mcs msgs
          msgs := msgs' }
  | _, _ => none

/-- The averages of a line whose values were all read in one state. -/
theorem printStat_averages (final : Bool) (counters : Counter → Nat) :
    ∃ report, printStat final ((statReads final).map counters) = some report ∧
      report.connAvg =
        connAvg (counters .connectionSummMcs) (counters .children) (counters .connectionErrors) ∧
      report.latAvg = latAvg (counters .latencySummMcs) (counters .msgs) := by
  cases final with
  | false => exact ⟨_, rfl, rfl, rfl⟩
  | true => exact ⟨_, rfl, rfl, rfl⟩

theorem div_max_le {summ count bound : Nat} (summ_le : summ ≤ bound * count) :
    summ / max count 1 ≤ bound := by
  apply Nat.div_le_of_le_mul
  calc summ ≤ bound * count := summ_le
    _ ≤ bound * max count 1 := Nat.mul_le_mul_left bound (le_max_left count 1)
    _ = max count 1 * bound := Nat.mul_comm bound _

theorem connections_eq {children connection_errors : Nat} (le : connection_errors ≤ children)
    (fits : children < 2 ^ 64) :
    connections children connection_errors = children - connection_errors :=
  toUnsigned_eq (by omega) (by omega)

end Mrps.Tester
