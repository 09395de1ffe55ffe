/-!
# Permissions and roles

`permissions.ts` and `roles.ts`: the keys that guards and workflows ask for, the roles,
and which permissions each role has.
-/

namespace AuditSphere.Shared

/-- A permission. -/
inductive PermissionKey where
  | tenantManage | userRead | userManage | auditTrailRead
  | universeRead | universeManage
  | riskRead | riskManage | riskAssess | riskConfigureScoring
  | controlRead | controlManage | controlTest
  | planRead | planManage | planApprove
  | engagementRead | engagementCreate | engagementManage | engagementAdvanceStage | engagementClose
  | engagementIssueReport
  | programManage | programApprove | workpaperRead | workpaperPrepare | workpaperReview | workpaperSignOff
  | workpaperUnlock
  | documentRead | documentUpload | documentDelete | documentRestricted
  | findingRead | findingManage | findingSubmit | findingRespond | findingValidate | findingAcceptRisk
  | requestRead | requestManage | requestRespond
  | libraryRead | libraryContribute | libraryApprove
  | timeOwn | timeApprove | resourceRead | resourceManage
  | dashboardAuditor | dashboardPartner | dashboardCommittee | reportExport
  | aiUse | aiConfigure
  | monitoringRead | monitoringManage
  deriving DecidableEq

/-- The key under which a permission is stored. -/
def PermissionKey.key : PermissionKey → String
  | .tenantManage => "tenant:manage"
  | .userRead => "user:read"
  | .userManage => "user:manage"
  | .auditTrailRead => "audit_trail:read"
  | .universeRead => "universe:read"
  | .universeManage => "universe:manage"
  | .riskRead => "risk:read"
  | .riskManage => "risk:manage"
  | .riskAssess => "risk:assess"
  | .riskConfigureScoring => "risk:configure_scoring"
  | .controlRead => "control:read"
  | .controlManage => "control:manage"
  | .controlTest => "control:test"
  | .planRead => "plan:read"
  | .planManage => "plan:manage"
  | .planApprove => "plan:approve"
  | .engagementRead => "engagement:read"
  | .engagementCreate => "engagement:create"
  | .engagementManage => "engagement:manage"
  | .engagementAdvanceStage => "engagement:advance_stage"
  | .engagementClose => "engagement:close"
  | .engagementIssueReport => "engagement:issue_report"
  | .programManage => "program:manage"
  | .programApprove => "program:approve"
  | .workpaperRead => "workpaper:read"
  | .workpaperPrepare => "workpaper:prepare"
  | .workpaperReview => "workpaper:review"
  | .workpaperSignOff => "workpaper:sign_off"
  | .workpaperUnlock => "workpaper:unlock"
  | .documentRead => "document:read"
  | .documentUpload => "document:upload"
  | .documentDelete => "document:delete"
  | .documentRestricted => "document:restricted"
  | .findingRead => "finding:read"
  | .findingManage => "finding:manage"
  | .findingSubmit => "finding:submit"
  | .findingRespond => "finding:respond"
  | .findingValidate => "finding:validate"
  | .findingAcceptRisk => "finding:accept_risk"
  | .requestRead => "request:read"
  | .requestManage => "request:manage"
  | .requestRespond => "request:respond"
  | .libraryRead => "library:read"
  | .libraryContribute => "library:contribute"
  | .libraryApprove => "library:approve"
  | .timeOwn => "time:own"
  | .timeApprove => "time:approve"
  | .resourceRead => "resource:read"
  | .resourceManage => "resource:manage"
  | .dashboardAuditor => "dashboard:auditor"
  | .dashboardPartner => "dashboard:partner"
  | .dashboardCommittee => "dashboard:committee"
  | .reportExport => "report:export"
  | .aiUse => "ai:use"
  | .aiConfigure => "ai:configure"
  | .monitoringRead => "monitoring:read"
  | .monitoringManage => "monitoring:manage"

/-- `PERMISSION_KEYS`. -/
def permissionKeys : List PermissionKey :=
  [.tenantManage, .userRead, .userManage, .auditTrailRead, .universeRead, .universeManage, .riskRead,
   .riskManage, .riskAssess, .riskConfigureScoring, .controlRead, .controlManage, .controlTest, .planRead,
   .planManage, .planApprove, .engagementRead, .engagementCreate, .engagementManage, .engagementAdvanceStage,
   .engagementClose, .engagementIssueReport, .programManage, .programApprove, .workpaperRead,
   .workpaperPrepare, .workpaperReview, .workpaperSignOff, .workpaperUnlock, .documentRead, .documentUpload,
   .documentDelete, .documentRestricted, .findingRead, .findingManage, .findingSubmit, .findingRespond,
   .findingValidate, .findingAcceptRisk, .requestRead, .requestManage, .requestRespond, .libraryRead,
   .libraryContribute, .libraryApprove, .timeOwn, .timeApprove, .resourceRead, .resourceManage,
   .dashboardAuditor, .dashboardPartner, .dashboardCommittee, .reportExport, .aiUse, .aiConfigure,
   .monitoringRead, .monitoringManage]

/-- Every permission is among the keys. -/
theorem mem_permissionKeys (p : PermissionKey) : p ∈ permissionKeys := by
  cases p <;> decide

/-! ### Roles -/

/-- A role. -/
inductive RoleKey where
  | globalAdmin | auditPartner | chiefAuditExecutive | auditManager | seniorAuditor | juniorAuditor
  | businessOwner | managementReviewer | auditCommitteeViewer
  deriving DecidableEq

/-- `AUDIT_FUNCTION_ROLES`. -/
def auditFunctionRoles : List RoleKey :=
  [.globalAdmin, .auditPartner, .chiefAuditExecutive, .auditManager, .seniorAuditor, .juniorAuditor]

/-- `AUDITOR_BASE`. -/
def auditorBase : List PermissionKey :=
  [.userRead, .universeRead, .riskRead, .controlRead, .planRead, .engagementRead, .workpaperRead,
   .workpaperPrepare, .documentRead, .documentUpload, .findingRead, .findingManage, .requestRead,
   .requestManage, .libraryRead, .libraryContribute, .timeOwn, .dashboardAuditor, .aiUse, .monitoringRead]

/-- `SENIOR`. -/
def senior : List PermissionKey := auditorBase ++
  [.riskManage, .riskAssess, .controlManage, .controlTest, .programManage, .workpaperReview, .findingSubmit,
   .reportExport]

/-- `MANAGER`. -/
def manager : List PermissionKey := senior ++
  [.universeManage, .planManage, .engagementCreate, .engagementManage, .engagementAdvanceStage,
   .programApprove, .workpaperSignOff, .findingValidate, .documentDelete, .timeApprove, .resourceRead,
   .resourceManage, .auditTrailRead, .monitoringManage]

/-- `CAE`. -/
def cae : List PermissionKey := manager ++
  [.planApprove, .engagementClose, .engagementIssueReport, .workpaperUnlock, .findingAcceptRisk,
   .riskConfigureScoring, .libraryApprove, .documentRestricted, .dashboardPartner, .dashboardCommittee,
   .userManage, .aiConfigure]

/-- `BUSINESS_OWNER`. -/
def businessOwner : List PermissionKey :=
  [.engagementRead, .findingRead, .findingRespond, .requestRead, .requestRespond, .documentRead,
   .documentUpload]

/-- `MANAGEMENT_REVIEWER`. -/
def managementReviewer : List PermissionKey := businessOwner ++
  [.universeRead, .riskRead, .controlRead, .planRead, .reportExport]

/-- `COMMITTEE`. -/
def committee : List PermissionKey :=
  [.universeRead, .riskRead, .planRead, .engagementRead, .findingRead, .dashboardCommittee, .reportExport]

/-- `ROLE_PERMISSIONS`; the partner has the permissions of the executive. -/
def rolePermissions : RoleKey → List PermissionKey
  | .globalAdmin => permissionKeys
  | .auditPartner => cae
  | .chiefAuditExecutive => cae
  | .auditManager => manager
  | .seniorAuditor => senior
  | .juniorAuditor => auditorBase
  | .businessOwner => businessOwner
  | .managementReviewer => managementReviewer
  | .auditCommitteeViewer => committee

/-- `permissionsForRoles`. -/
def permissionsForRoles (roles : List RoleKey) : List PermissionKey := roles.flatMap rolePermissions

theorem mem_permissionsForRoles {roles : List RoleKey} {p : PermissionKey} :
    p ∈ permissionsForRoles roles ↔ ∃ r ∈ roles, p ∈ rolePermissions r :=
  List.mem_flatMap

end AuditSphere.Shared
