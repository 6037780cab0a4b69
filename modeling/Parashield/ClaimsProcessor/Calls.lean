import Parashield.ClaimsProcessor.Settings
import Parashield.Deployment

/-!
# Claims processor: entry points

All state-changing entry points of the processor.
-/

namespace Parashield.ClaimsProcessor

open Support Support.Contract Invocation
open OracleVerifier (OracleReadingQuery)

/-- The state-changing entry points with their arguments. -/
inductive Entry where
  | initializeProcessor (admin policyEngine riskPool oracleVerifier : Address)
      (stalenessThreshold : ℕ)
  | addKeeper (admin keeper : Address)
  | removeKeeper (admin keeper : Address)
  | submitClaim (claimant : Address) (policyId : ℕ)
  | submitClaimWithRef (claimant : Address) (policyId : ℕ)
      (reference : Symbol)
  | registerClaimType (admin : Address) (claimType : Symbol)
  | submitClaimWithType (claimant : Address) (policyId : ℕ)
      (claimType : Symbol)
  | batchSubmitClaims (claimant : Address) (policyIds : List ℕ)
  | processClaim (keeper : Address) (claimId : ℕ)
      (partialPayoutBps : Option ℕ)
  | batchProcessClaims (keeper : Address) (claimIds : List ℕ)
      (partialPayoutBps : Option ℕ)
  | batchVerifyOracleReadings (queries : List OracleReadingQuery)
  | verifyReadingsIndividual (queries : List OracleReadingQuery)
  | processMultiReadingClaim (keeper : Address) (claimId : ℕ)
      (queries : List OracleReadingQuery) (requireAll : Bool)
      (partialPayoutBps : Option ℕ)
  | autoProcess (keeper : Address) (policyId : ℕ)
      (partialPayoutBps : Option ℕ)
  | batchAutoProcess (caller : Address) (limit : ℕ)
  | setDisputeWindow (admin : Address) (seconds : ℕ)
  | setDisputeDeadline (admin : Address) (claimId deadline : ℕ)
  | disputeClaim (caller : Address) (claimId : ℕ) (reason : Symbol)
  | resolveDispute (admin : Address) (claimId : ℕ)
  | rejectClaim (admin : Address) (claimId : ℕ)
  | scheduleInstallments (caller : Address) (claimId : ℕ)
      (amountPerInstallment : ℤ) (numInstallments intervalSeconds : ℕ)
  | claimInstallment (claimant : Address) (claimId : ℕ)
  | pause (admin : Address)
  | resume (admin : Address)
  | setGuardians (admin : Address) (guardians : List Address)
      (threshold : ℕ)
  | setGuardianThreshold (admin : Address) (threshold : ℕ)
  | proposeNewAdmin (admin newAdmin : Address)
  | approveAdminChange (guardian newAdmin : Address)
  | acceptAdmin (admin : Address)
  | setEscalationThreshold (admin : Address) (threshold : ℕ)
  | setCategoryEscalation (admin : Address) (category : Symbol)
      (threshold : ℕ)
  | setClaimDeadline (admin : Address) (deadline : ℕ)
  | submitClaimEvidence (claimId : ℕ) (claimant : Address)
      (evidenceHashes : List Bytes)
  | setPayoutDelay (admin : Address) (delaySeconds : ℤ)
  | setFraudConfig (admin : Address) (config : FraudConfig)
  | claimPayoutWithToken (claimId : ℕ) (payoutToken : Address)
  | claimPayoutTo (claimId : ℕ) (recipient : Address)
  | claimPayout (claimId : ℕ)
  | escalateClaim (caller : Address) (claimId : ℕ)
  | requireIdentityForCategory (admin : Address) (productId : ℕ)
      (idType : Symbol)
  | removeIdentityRequirement (admin : Address) (productId : ℕ)
  | addAuthorizedAttester (admin attester : Address)
  | removeAuthorizedAttester (admin attester : Address)
  | verifyClaimantIdentity (attester : Address) (claimId : ℕ)
      (idType : Symbol)

/-- The call files claims in the name of their claimant. -/
def Entry.files : Entry → Bool
  | .submitClaim .. | .submitClaimWithRef .. | .submitClaimWithType ..
  | .batchSubmitClaims .. => true
  | _ => false

def exec (env : Context) : Entry → Call Unit
  | .initializeProcessor admin engine pool oracle staleness =>
      initializeProcessor env admin engine pool oracle staleness
  | .addKeeper admin keeper => addKeeper env admin keeper
  | .removeKeeper admin keeper => removeKeeper env admin keeper
  | .submitClaim claimant policyId =>
      perform (submitClaim env claimant policyId)
  | .submitClaimWithRef claimant policyId reference =>
      perform (submitClaimWithRef env claimant policyId reference)
  | .registerClaimType admin claimType =>
      registerClaimType env admin claimType
  | .submitClaimWithType claimant policyId claimType =>
      perform (submitClaimWithType env claimant policyId claimType)
  | .batchSubmitClaims claimant policyIds =>
      perform (batchSubmitClaims env claimant policyIds)
  | .processClaim keeper claimId bps =>
      perform (processClaim env keeper claimId bps)
  | .batchProcessClaims keeper claimIds bps =>
      perform (batchProcessClaims env keeper claimIds bps)
  | .batchVerifyOracleReadings queries =>
      perform (batchVerifyOracleReadings env queries)
  | .verifyReadingsIndividual queries =>
      perform (verifyReadingsIndividual env queries)
  | .processMultiReadingClaim keeper claimId queries requireAll bps =>
      perform
        (processMultiReadingClaim env keeper claimId queries requireAll bps)
  | .autoProcess keeper policyId bps =>
      perform (autoProcess env keeper policyId bps)
  | .batchAutoProcess caller limit =>
      perform (batchAutoProcess env caller limit)
  | .setDisputeWindow admin seconds => setDisputeWindow env admin seconds
  | .setDisputeDeadline admin claimId deadline =>
      setDisputeDeadline env admin claimId deadline
  | .disputeClaim caller claimId reason =>
      disputeClaim env caller claimId reason
  | .resolveDispute admin claimId => resolveDispute env admin claimId
  | .rejectClaim admin claimId => rejectClaim env admin claimId
  | .scheduleInstallments caller claimId amount num interval =>
      scheduleInstallments env caller claimId amount num interval
  | .claimInstallment claimant claimId =>
      perform (claimInstallment env claimant claimId)
  | .pause admin => pause env admin
  | .resume admin => resume env admin
  | .setGuardians admin guardians threshold =>
      setGuardians env admin guardians threshold
  | .setGuardianThreshold admin threshold =>
      setGuardianThreshold env admin threshold
  | .proposeNewAdmin admin newAdmin => proposeNewAdmin env admin newAdmin
  | .approveAdminChange guardian newAdmin =>
      approveAdminChange env guardian newAdmin
  | .acceptAdmin admin => acceptAdmin env admin
  | .setEscalationThreshold admin threshold =>
      setEscalationThreshold env admin threshold
  | .setCategoryEscalation admin category threshold =>
      setCategoryEscalation env admin category threshold
  | .setClaimDeadline admin deadline => setClaimDeadline env admin deadline
  | .submitClaimEvidence claimId claimant hashes =>
      submitClaimEvidence env claimId claimant hashes
  | .setPayoutDelay admin seconds => setPayoutDelay env admin seconds
  | .setFraudConfig admin config => setFraudConfig env admin config
  | .claimPayoutWithToken claimId token =>
      perform (claimPayoutWithToken env claimId token)
  | .claimPayoutTo claimId recipient =>
      perform (claimPayoutTo env claimId recipient)
  | .claimPayout claimId => perform (claimPayout env claimId)
  | .escalateClaim caller claimId => escalateClaim env caller claimId
  | .requireIdentityForCategory admin productId idType =>
      requireIdentityForCategory env admin productId idType
  | .removeIdentityRequirement admin productId =>
      removeIdentityRequirement env admin productId
  | .addAuthorizedAttester admin attester =>
      addAuthorizedAttester env admin attester
  | .removeAuthorizedAttester admin attester =>
      removeAuthorizedAttester env admin attester
  | .verifyClaimantIdentity attester claimId idType =>
      verifyClaimantIdentity env attester claimId idType

end Parashield.ClaimsProcessor
