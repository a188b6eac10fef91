import RoutineWatch.Program

/-!
# How the program ends

The program ends with the exit status of the command that its command line asks for, and a
failure is never the status of success.

- `Host.run_eq_runCommand`: a command line that asks for a command runs it.
-/
namespace RoutineWatch

theorem Error.exitCode_value_ne_zero (e : Error) : e.exitCode.value ≠ 0 := by
  cases e <;> simp [Error.exitCode, ExitCode.value]

/-- The exit status of a program that ends with a command. -/
def CommandRun.exitStatus (run : CommandRun) : Nat :=
  match run.result with
  | .ok code => code.value
  | .error e => e.exitCode.value

namespace Host

theorem exitCode_report (m : Machine) (run : CommandRun) :
    (report m run).exitCode.value = run.exitStatus := by
  unfold report Report.exitCode CommandRun.exitStatus
  cases run.result <;> rfl

/-- A command line that asks for a command runs it. -/
theorem run_eq_runCommand {host : Host} {arguments : List String} {invocation : Invocation}
    (asked : CommandLine.read (host.machine.value? Help.configVariable) arguments =
      .run invocation) : host.run arguments = host.runCommand invocation := by
  rw [run, asked]

end Host

end RoutineWatch
