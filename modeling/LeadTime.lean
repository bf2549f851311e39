import LeadTime.Main
import LeadTime.Proofs.AliasClosure
import LeadTime.Proofs.BindingCompleteness
import LeadTime.Proofs.ColumnNames
import LeadTime.Proofs.IntegrationScope
import LeadTime.Proofs.JoinSet
import LeadTime.Proofs.Rejection
import LeadTime.Proofs.SharedRows
import LeadTime.Proofs.Sql.Columns
import LeadTime.Proofs.Sql.Evaluation
import LeadTime.Proofs.StageNames
import LeadTime.Proofs.ValueIndependence
import LeadTime.Proofs.LeadTimes
import LeadTime.Proofs.Shape
import LeadTime.Proofs.RatingBuckets
import LeadTime.Proofs.StageColumns
import LeadTime.Proofs.ColumnClosure
import LeadTime.Proofs.StageAlignment
import LeadTime.Proofs.Registry.Order
import LeadTime.Proofs.Registry.Confluence
import LeadTime.Proofs.CriterionNames
import LeadTime.Proofs.Registry.Runs
import LeadTime.Proofs.StageEvent.Runs
import LeadTime.Proofs.RunBoundary
import LeadTime.Proofs.RunCorrelation
import LeadTime.Proofs.Conjunction
import LeadTime.Proofs.MergedFilters
import LeadTime.Proofs.AddressPatterns
import LeadTime.Proofs.DeployRuns
import LeadTime.Proofs.ListingOrder
import LeadTime.Proofs.StageGroups
import LeadTime.Proofs.LimitArithmetic
import LeadTime.Proofs.RequestEncoding
import LeadTime.Proofs.StageFrame
import LeadTime.Proofs.UntaggedValues
import LeadTime.Proofs.BudgetText
