import Byoh.Model.AgentMain

/-!
# Renewing the certificate of the agent

`certificateRotation` should renew a certificate when less than a fifth of its lifetime is left
(`Due`). It decides by the certificate in the configuration that the process read when it started.
While that certificate is in force the decision is right (`renewal_only_when_due`). A renewal does not
change the configuration, so from the first renewal on every poll renews (`renews_at_every_poll`), also
while the new certificate is fresh (`fresh_certificate_renewed`).
-/

set_option autoImplicit false

namespace Byoh.Properties

open Byoh.Model.AgentMain

/-- Less than a fifth of the lifetime is left. -/
def Due (cert : Certificate) (now : Int) : Prop :=
  5 * (cert.notAfter - now) < cert.notAfter - cert.notBefore

instance (cert : Certificate) (now : Int) : Decidable (Due cert now) :=
  inferInstanceAs (Decidable (_ < _))

/-- The threshold of the code: division of durations rounds towards zero, and long lifetimes are cut
off, so it is not too early. -/
theorem due_of_renewAfter {cert : Certificate} (hcert : cert.notBefore < cert.notAfter) {now : Int}
    (h : renewAfter cert < now) : Due cert now := by
  have htotal : timeSub cert.notAfter cert.notBefore ≤ cert.notAfter - cert.notBefore := by
    rw [timeSub]
    omega
  have hpos : 0 ≤ timeSub cert.notAfter cert.notBefore := by
    rw [timeSub]
    omega
  rw [renewAfter, Int.tdiv_neg, Int.tdiv_eq_ediv_of_nonneg hpos] at h
  rw [Due]
  omega

/-- The renewals of a loop that looks at `cert` are made at times at which `cert` is due. -/
theorem due_of_mem_rotation {cert inForce : Certificate} (hcert : cert.notBefore < cert.notAfter)
    {polls : List Poll} {r : Renewal}
    (hr : r ∈ certificateRotation (.certificate cert) inForce polls) : Due cert r.now := by
  induction polls generalizing inForce with
  | nil => cases hr
  | cons poll polls ih =>
    rw [certificateRotation, certRotation] at hr
    by_cases hdue : renewAfter cert < poll.now
    · rw [if_pos hdue] at hr
      rcases List.mem_cons.1 hr with rfl | hr
      · exact due_of_renewAfter hcert hdue
      · exact ih hr
    · rw [if_neg hdue] at hr
      exact ih hr

/-- In every run of the loop, started with the certificate that is then in force, a renewal that is
made while that certificate is in force is made when less than a fifth of its lifetime is left. -/
theorem renewal_only_when_due (cert : Certificate) (hcert : cert.notBefore < cert.notAfter)
    (polls : List Poll) :
    ∀ r ∈ certificateRotation (.certificate cert) cert polls, r.inForce = cert →
      Due r.inForce r.now := by
  intro r hr hinForce
  rw [hinForce]
  exact due_of_mem_rotation hcert hr

/-- Once a certificate is due, every later poll renews. -/
theorem renews_at_every_poll {cert inForce : Certificate} {polls : List Poll}
    (hpolls : ∀ poll ∈ polls, renewAfter cert < poll.now) :
    (certificateRotation (.certificate cert) inForce polls).map (·.now) = polls.map (·.now) := by
  induction polls generalizing inForce with
  | nil => rfl
  | cons poll polls ih =>
    obtain ⟨hpoll, hrest⟩ := List.forall_mem_cons.1 hpolls
    rw [certificateRotation, certRotation, if_pos hpoll, List.map_cons, List.map_cons, ih hrest]

/-- A certificate from 0 to 100, renewed at 90; at 85 the bootstrap flow failed. -/
theorem renewal_only_when_due_once :
    let cert : Certificate := ⟨0, 100⟩
    let polls : List Poll := [⟨50, none⟩, ⟨85, none⟩, ⟨90, some ⟨90, 1090⟩⟩]
    cert.notBefore < cert.notAfter ∧
      (certificateRotation (.certificate cert) cert polls).map (·.now) = [85, 90] ∧
      ∀ r ∈ certificateRotation (.certificate cert) cert polls, r.inForce = cert →
        Due r.inForce r.now :=
  ⟨by decide, by decide +kernel, renewal_only_when_due ⟨0, 100⟩ (by decide) _⟩

/-- The certificate is renewed at 90, and the new one, which is good until 1090, is renewed at 95. -/
theorem fresh_certificate_renewed :
    let cert : Certificate := ⟨0, 100⟩
    let polls : List Poll := [⟨90, some ⟨90, 1090⟩⟩, ⟨95, some ⟨95, 1095⟩⟩]
    certificateRotation (.certificate cert) cert polls =
        [⟨90, cert, some ⟨90, 1090⟩⟩, ⟨95, ⟨90, 1090⟩, some ⟨95, 1095⟩⟩] ∧
      ¬ Due ⟨90, 1090⟩ 95 := by
  decide +kernel

end Byoh.Properties
