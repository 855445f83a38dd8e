import TreebankSearch.Engine.Basic
import TreebankSearch.Hit.Basic
import TreebankSearch.Paging.Basic
import TreebankSearch.Proofs.Corpus.Consistency
import TreebankSearch.Proofs.Corpus.Exclusive
import TreebankSearch.Proofs.Corpus.Passes
import TreebankSearch.Proofs.Corpus.Selection
import TreebankSearch.Proofs.Engine
import TreebankSearch.Proofs.Filter.Attach
import TreebankSearch.Proofs.Filter.Clause
import TreebankSearch.Proofs.Filter.Parameter
import TreebankSearch.Proofs.Hit.Entity
import TreebankSearch.Proofs.Hit.Erasure
import TreebankSearch.Proofs.Hit.IdList
import TreebankSearch.Proofs.Hit.Markup
import TreebankSearch.Proofs.Hit.Runs
import TreebankSearch.Proofs.Paging.Browse
import TreebankSearch.Proofs.Paging.Confinement
import TreebankSearch.Proofs.Paging.Filtered
import TreebankSearch.Proofs.Paging.Pruning
import TreebankSearch.Proofs.Paging.QueryPattern
import TreebankSearch.Proofs.Pattern.Axis
import TreebankSearch.Proofs.Pattern.Change
import TreebankSearch.Proofs.Pattern.Extension
import TreebankSearch.Proofs.Pattern.Idempotence
import TreebankSearch.Proofs.Pattern.Leading
import TreebankSearch.Proofs.Pattern.LexicalTest
import TreebankSearch.Proofs.Pattern.Listing
import TreebankSearch.Proofs.Pattern.Normal
import TreebankSearch.Proofs.Pattern.RoundTrip
import TreebankSearch.Proofs.Pattern.Splice
import TreebankSearch.Proofs.Pattern.Stability
import TreebankSearch.Proofs.Session.Budget
import TreebankSearch.Proofs.Session.Delivery
import TreebankSearch.Proofs.Session.Outage
import TreebankSearch.Proofs.Session.Phase
import TreebankSearch.Proofs.Session.Run
import TreebankSearch.Proofs.Session.Tour
