import ClusterVision.ProgProofs
import ClusterVision.PagingProofs
import ClusterVision.RunProofs
import ClusterVision.TimedRunProofs
import ClusterVision.FaultProofs
import ClusterVision.TableProofs
import ClusterVision.ReplayProofs
import ClusterVision.IsoTimeProofs
import ClusterVision.KubeApi
import ClusterVision.Backend
import ClusterVision.RbacService
import ClusterVision.RbacProofs
import ClusterVision.AssignRoleProofs
import ClusterVision.RevokeRoleProofs
import ClusterVision.BindingCleanupProofs
import ClusterVision.AccessRequestService
import ClusterVision.AccessRequestProofs
import ClusterVision.JitGrantProofs
import ClusterVision.JitRevocationProofs
import ClusterVision.ApprovalFaultProofs
import ClusterVision.PoolProofs
import ClusterVision.SnapshotProofs
import ClusterVision.StatusHistoryProofs
import ClusterVision.ExpireAccessBindings
import ClusterVision.ExpireAccessBindingsProofs
import ClusterVision.CleanupRunProofs
import ClusterVision.Registry
import ClusterVision.UserServices
import ClusterVision.HttpRoutes
import ClusterVision.RegistryProofs
import ClusterVision.UserServicesProofs
import ClusterVision.HttpRunProofs
import ClusterVision.WriteIsolationProofs
import ClusterVision.ReadIsolationProofs
import ClusterVision.UserDeletionProofs
import ClusterVision.RegistrationProofs
import ClusterVision.ImportOfferProofs
import ClusterVision.RegistryRoundTripProofs
import ClusterVision.AccessSimulatorProofs
import ClusterVision.GrantSeparationProofs
import ClusterVision.GrantableRequestProofs
import ClusterVision.ClusterService
import ClusterVision.ClientCacheProofs
import ClusterVision.ClusterRegistryProofs
import ClusterVision.LdapService
import ClusterVision.AuthService
import ClusterVision.LdapRunProofs
import ClusterVision.ScopeRoleProofs
import ClusterVision.ReservedScopeProofs
import ClusterVision.OneAccountProofs
import ClusterVision.ConcurrentUpdateProofs
import ClusterVision.AuditLog
import ClusterVision.AuditProofs
import ClusterVision.DecisionTrailProofs
import ClusterVision.ExactCleanupProofs
import ClusterVision.AccountSourceProofs
import ClusterVision.AuthRoutes
import ClusterVision.AdminLockoutProofs
import ClusterVision.SessionProofs
import ClusterVision.BootstrapProofs
import ClusterVision.LoginLimit
import ClusterVision.LoginLimitProofs
import ClusterVision.LinkProofs
import ClusterVision.DeletionRetryProofs
import ClusterVision.CertificateNameProofs
import ClusterVision.TokenService
import ClusterVision.TokenSecretProofs
import ClusterVision.ClusterRoleProofs
import ClusterVision.RoleEditProofs
import ClusterVision.ConcurrentAssignProofs
import ClusterVision.KeyMatchProofs
import ClusterVision.KeyCustodyProofs
import ClusterVision.KubeconfigProofs
import ClusterVision.TokenRotationProofs
import ClusterVision.LdapProofs
import ClusterVision.DirectoryRolesProofs
import ClusterVision.LoginWindowProofs
import ClusterVision.PasswordProofs
import ClusterVision.RedactionProofs
import ClusterVision.AuditReadingProofs
import ClusterVision.AuditActorProofs
import ClusterVision.CsvExport
import ClusterVision.PathFilterProofs
import ClusterVision.DateRangeProofs
import ClusterVision.VaultConfigProofs
import ClusterVision.VaultService
import ClusterVision.VaultSyncProofs
import ClusterVision.VaultTokenProofs
import ClusterVision.FlightProofs
import ClusterVision.ApiClient
import ClusterVision.ApiClientProofs
import ClusterVision.RefreshQueueProofs
import ClusterVision.ActiveClusterProofs
import ClusterVision.AuthStoreProofs
import ClusterVision.PagedScanProofs
import ClusterVision.TokenHistoryProofs
import ClusterVision.ScopeMigrationProofs
import ClusterVision.BootstrapScriptProofs
import ClusterVision.JsTextProofs
import ClusterVision.RoleOptionProofs
import ClusterVision.RbacYamlProofs
import ClusterVision.LedgerProofs
import ClusterVision.CaFileProofs
import ClusterVision.JsSetProofs
import ClusterVision.UserWizardProofs
import ClusterVision.KubeconfigPanelProofs
import ClusterVision.CsvTextProofs
import ClusterVision.CsvFileProofs
import ClusterVision.OffsetPagingProofs
import ClusterVision.AuditPageProofs
import ClusterVision.AuthorizerProofs
import ClusterVision.AuthorityProofs
import ClusterVision.AccessViewProofs
import ClusterVision.ProtocolProofs
import ClusterVision.DecisionRaceProofs
import ClusterVision.DefaultAdminProofs
import ClusterVision.JsonTextProofs
import ClusterVision.LogLineProofs
import ClusterVision.AccessLogProofs
import ClusterVision.FilterTextProofs
import ClusterVision.LdapFilterProofs
import ClusterVision.Base64TextProofs
import ClusterVision.KubeconfigFile
import ClusterVision.KeyPairProofs
import ClusterVision.KubeconfigFileProofs
