import CrashCapture.Machine
import CrashCapture.Proofs.Outcome

namespace CrashCapture

theorem Run.disk_run {α : Type} (op : Disk α) (env : Environment) :
    (Run.disk op).run env =
      match op.run env.files with
      | .ok a t => (.ok a, { env with files := t })
      | .error e t => (.error e, { env with files := t }) := by
  change (match op.run env.files with
    | .ok a files => (Except.ok a, { env with files })
    | .error e files => (Except.error e, { env with files })) = _
  cases op.run env.files <;> rfl

theorem run_liftM_env {σ α : Type} {act : Run α} {s : Site σ} {a : α} {env : Environment}
    (h : act.run s.env = (a, env)) : (liftM act : SiteM σ α).run s = (a, { s with env }) := by
  change ((fun r : α × Environment => (r.1, { s with env := r.2 })) (act.run s.env)) = _
  rw [h]

theorem run_liftM_site {σ α : Type} {act : SiteM σ α} {p : Machine σ} {a : α} {site : Site σ}
    (h : act.run p.site = (a, site)) : (liftM act : MachineM σ α).run p = (a, { p with site }) := by
  change ((fun r : α × Site σ => (r.1, { p with site := r.2 })) (act.run p.site)) = _
  rw [h]

theorem run_liftM_run {σ α : Type} {act : Run α} {p : Machine σ} {a : α} {env : Environment}
    (h : act.run p.site.env = (a, env)) :
    (liftM act : MachineM σ α).run p = (a, { p with site := { p.site with env } }) :=
  run_liftM_site (run_liftM_env h)

end CrashCapture
